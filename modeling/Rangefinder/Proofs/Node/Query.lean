import Rangefinder.Proofs.Node.Run

/-! All that is asked of a node while it runs: edges, steps and wakes, in any order. Each entry keeps the
answer with the node and the sinks that it leaves behind. -/
namespace Rangefinder.Node

inductive Query
  | observe (edge : Edge)
  | step (now : Nat)
  | wake (now : Nat)
  deriving DecidableEq, Repr

def Query.instant? : Query → Option Nat
  | observe _ => none
  | step now | wake now => some now

inductive Answer
  | observed (report : EdgeReport)
  | stepped (now : Nat) (report : StepReport)
  | woken (now wake : Nat)
  deriving DecidableEq, Repr

structure Entry where
  answer : Answer
  node : Node
  sinks : Sinks

def ask (n : Node) (sinks : Sinks) : Query → Except Overflow Entry
  | .observe edge =>
    let (report, n) := n.observe edge
    .ok ⟨.observed report, n, sinks⟩
  | .step now => do
    let (report, n, sinks) ← n.step sinks now
    .ok ⟨.stepped now report, n, sinks⟩
  | .wake now => do
    let wake ← n.wake now
    .ok ⟨.woken now wake, n, sinks⟩

def serve (n : Node) (sinks : Sinks) : List Query → Except Overflow (List Entry)
  | [] => .ok []
  | q :: rest => do
    let entry ← n.ask sinks q
    let later ← entry.node.serve entry.sinks rest
    .ok (entry :: later)

section
variable {n : Node} {sinks : Sinks} {now : Nat} {entry : Entry}

theorem askObserve {edge : Edge} :
    n.ask sinks (.observe edge) = .ok entry ↔
      entry = ⟨.observed (n.observe edge).1, (n.observe edge).2, sinks⟩ := by
  constructor
  · intro asked
    exact (Except.ok.inj asked).symm
  · intro same
    exact same ▸ rfl

theorem askStep :
    n.ask sinks (.step now) = .ok entry ↔
      ∃ report n' sinks', n.step sinks now = .ok (report, n', sinks') ∧
        entry = ⟨.stepped now report, n', sinks'⟩ := by
  rw [ask, bindOk]
  constructor
  · intro ⟨⟨report, n', sinks'⟩, ran, same⟩
    cases same
    exact ⟨report, n', sinks', ran, rfl⟩
  · intro ⟨report, n', sinks', ran, same⟩
    exact ⟨(report, n', sinks'), ran, same ▸ rfl⟩

theorem askWake :
    n.ask sinks (.wake now) = .ok entry ↔
      ∃ wake, n.wake now = .ok wake ∧ entry = ⟨.woken now wake, n, sinks⟩ := by
  rw [ask, bindOk]
  constructor
  · intro ⟨wake, asked, same⟩
    cases same
    exact ⟨wake, asked, rfl⟩
  · intro ⟨wake, asked, same⟩
    exact ⟨wake, asked, same ▸ rfl⟩

theorem serveCons {q : Query} {rest : List Query} {entries : List Entry} :
    n.serve sinks (q :: rest) = .ok entries ↔
      ∃ entry later, n.ask sinks q = .ok entry ∧
        entry.node.serve entry.sinks rest = .ok later ∧ entries = entry :: later := by
  rw [serve, bindOk]
  constructor
  · intro ⟨entry, asked, rest⟩
    obtain ⟨later, served, same⟩ := bindOk.mp rest
    cases same
    exact ⟨entry, later, asked, served, rfl⟩
  · intro ⟨entry, later, asked, served, same⟩
    exact ⟨entry, asked, bindOk.mpr ⟨later, served, same ▸ rfl⟩⟩

variable {config : Config}

theorem askRoom (stands : Stands config n) (sinks : Sinks) {q : Query}
    (room : ∀ now ∈ q.instant?, config.Room now) :
    ∃ entry, n.ask sinks q = .ok entry ∧ Stands config entry.node := by
  cases q with
  | observe edge => exact ⟨_, rfl, observeStands stands edge⟩
  | step now =>
    obtain ⟨report, n', sinks', ran⟩ := stepRoom stands (room now rfl) sinks
    exact ⟨_, askStep.mpr ⟨report, n', sinks', ran, rfl⟩, stepStands stands (room now rfl) ran⟩
  | wake now =>
    obtain ⟨wake, asked⟩ := wakeRoom stands (room now rfl)
    exact ⟨_, askWake.mpr ⟨wake, asked, rfl⟩, stands⟩

theorem serveRoom (stands : Stands config n) (sinks : Sinks) {queries : List Query}
    (room : ∀ q ∈ queries, ∀ now ∈ q.instant?, config.Room now) :
    ∃ entries, n.serve sinks queries = .ok entries := by
  induction queries generalizing n sinks with
  | nil => exact ⟨[], rfl⟩
  | cons q rest ih =>
    obtain ⟨here, later⟩ := List.forall_mem_cons.mp room
    obtain ⟨entry, asked, stands⟩ := askRoom stands sinks here
    obtain ⟨entries, served⟩ := ih stands entry.sinks later
    exact ⟨_, serveCons.mpr ⟨entry, entries, asked, served, rfl⟩⟩

end

end Rangefinder.Node
