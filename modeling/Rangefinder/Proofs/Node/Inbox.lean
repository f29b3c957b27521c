import Rangefinder.Proofs.Node.Loop

/-! Edges on their way through the inbox. They are posted from outside at any moment, and reach the node
one by one in a pump, all at once in a turn, or through the edge that ends a sleep of the loop. Whatever
the order of these, the node observes just the edges that were accepted, each once and first come first
served, and those still waiting are the rest. -/
namespace Rangefinder
open Node (Stands)

namespace Node

def Call.edge? : Call → Option Edge
  | observe edge => some edge
  | step _ => none

def Reply.edgeReport? : Reply → Option EdgeReport
  | observed report => some report
  | stepped .. => none

theorem edgesObserved (edges : List Edge) :
    (edges.map Call.observe).filterMap Call.edge? = edges := by
  rw [List.filterMap_map]
  exact List.filterMap_some

theorem reportsObserved (reports : List EdgeReport) :
    (reports.map Reply.observed).filterMap Reply.edgeReport? = reports := by
  rw [List.filterMap_map]
  exact List.filterMap_some

theorem runObserves (n : Node) (sinks : Sinks) (edges : List Edge) :
    n.run sinks (edges.map .observe) =
      .ok ((n.observeAll edges).1.map .observed, (n.observeAll edges).2, sinks) := by
  induction edges generalizing n with
  | nil => rfl
  | cons edge rest ih => exact runCons.mpr ⟨_, _, _, _, _, _, rfl, ih _, rfl⟩

theorem observeEdge (n : Node) (edge : Edge) : (n.observe edge).1.edge = edge := by
  dsimp only [observe]
  split <;> rfl

theorem runReports {n n' : Node} {sinks sinks' : Sinks} {visits : List Call} {told : List Reply}
    (ran : n.run sinks visits = .ok (told, n', sinks')) :
    (told.filterMap Reply.edgeReport?).map EdgeReport.edge = visits.filterMap Call.edge? := by
  induction visits generalizing n sinks told with
  | nil =>
    cases ran
    rfl
  | cons c rest ih =>
    obtain ⟨reply, m, line, later, _, _, called, again, same⟩ := runCons.mp ran
    cases same
    have others := ih again
    cases c with
    | observe edge =>
      cases called
      exact List.cons_eq_cons.mpr ⟨observeEdge n edge, others⟩
    | step now =>
      obtain ⟨report, _, same⟩ := callStep.mp called
      exact same ▸ others

theorem observeAllEdges (n : Node) (edges : List Edge) :
    (n.observeAll edges).1.map EdgeReport.edge = edges := by
  have reports := runReports (runObserves n .willing edges)
  rwa [reportsObserved, edgesObserved] at reports

theorem runStep {n n' : Node} {sinks sinks' : Sinks} {now : Nat} {report : StepReport}
    (stepped : n.step sinks now = .ok (report, n', sinks')) :
    n.run sinks [.step now] = .ok ([.stepped now report], n', sinks') :=
  runCons.mpr ⟨_, _, _, _, _, _, callStep.mpr ⟨report, stepped, rfl⟩, rfl, rfl⟩

theorem runTurn {n n' : Node} {sinks sinks' : Sinks} {edges : List Edge} {now : Nat}
    {report : StepReport} (stepped : (n.observeAll edges).2.step sinks now = .ok (report, n', sinks')) :
    n.run sinks (edges.map .observe ++ [.step now]) =
      .ok ((n.observeAll edges).1.map .observed ++ [.stepped now report], n', sinks') :=
  runAppend.mpr ⟨_, _, _, _, _, _, runObserves n sinks edges, runStep stepped, rfl⟩

end Node

namespace Station

def receive (s : Station) : List EdgeReport × Station :=
  match s.waiting with
  | [] => ([], s)
  | edge :: rest =>
    let (report, node) := s.node.observe edge
    ([report], { s with node, waiting := rest })

/-- A turn is a row of single receives and then a step, so that a post may come anywhere in between. A
pass is a turn of the loop, out of the sleep until `wake` if there was one. -/
inductive Call
  | post (edge : Edge)
  | receive
  | pump
  | step (now : Nat)
  | turn (now : Nat)
  | pass (clock : Nat) (wake : Option Nat)
  deriving DecidableEq, Repr

inductive Reply
  | posted (edge : Edge) (accepted : Bool)
  | handed (reports : List EdgeReport)
  | stepped (report : StepReport)
  | turned (report : TurnReport)
  deriving DecidableEq, Repr

namespace Reply

def accepted? : Reply → Option Edge
  | posted edge true => some edge
  | posted _ false | handed _ | stepped _ | turned _ => none

def reports : Reply → List EdgeReport
  | posted .. | stepped _ => []
  | handed reports => reports
  | turned report => report.edges

end Reply

def call (s : Station) (sinks : Sinks) : Call → Except Overflow (Reply × Station × Sinks)
  | .post edge =>
    let (accepted, s) := s.post edge
    .ok (.posted edge accepted, s, sinks)
  | .receive =>
    let (reports, s) := s.receive
    .ok (.handed reports, s, sinks)
  | .pump =>
    let (reports, s) := s.pump
    .ok (.handed reports, s, sinks)
  | .step now => do
    let (report, node, sinks) ← s.node.step sinks now
    .ok (.stepped report, { s with node }, sinks)
  | .turn now => do
    let (report, s, sinks) ← s.turn sinks now
    .ok (.turned report, s, sinks)
  | .pass clock wake => do
    let (report, l) ← Loop.turn ⟨s, sinks, clock, wake⟩
    .ok (.turned report, l.station, l.sinks)

def run (s : Station) (sinks : Sinks) : List Call → Except Overflow (List Reply × Station × Sinks)
  | [] => .ok ([], s, sinks)
  | c :: rest => do
    let (reply, s, sinks) ← s.call sinks c
    let (replies, s, sinks) ← s.run sinks rest
    .ok (reply :: replies, s, sinks)

/-- What a station has done with its edges between two moments: those that waited or were accepted since
are those that the node observed, followed by those that wait now. -/
structure Delivers (s : Station) (sinks : Sinks) (replies : List Reply) (s' : Station)
    (sinks' : Sinks) : Prop where
  edges : ∃ visits told, s.node.run sinks visits = .ok (told, s'.node, sinks') ∧
    told.filterMap Node.Reply.edgeReport? = replies.flatMap Reply.reports ∧
    s.waiting ++ replies.filterMap Reply.accepted? =
      visits.filterMap Node.Call.edge? ++ s'.waiting
  capacity : s'.capacity = s.capacity
  room : s.waiting.length ≤ s.capacity → s'.waiting.length ≤ s.capacity

section
variable {s s' : Station} {sinks sinks' : Sinks}

theorem postDelivers (s : Station) (sinks : Sinks) (edge : Edge) :
    Delivers s sinks [.posted edge (s.post edge).1] (s.post edge).2 sinks := by
  obtain ⟨free, same⟩ | ⟨_, same⟩ := s.postCases edge
  · rw [same]
    refine ⟨⟨[], [], rfl, rfl, rfl⟩, rfl, fun _ => ?_⟩
    rw [List.length_append]
    exact free
  · rw [same]
    exact ⟨⟨[], [], rfl, rfl, List.append_nil _⟩, rfl, id⟩

theorem receiveDelivers (s : Station) (sinks : Sinks) :
    Delivers s sinks [.handed s.receive.1] s.receive.2 sinks := by
  cases waiting : s.waiting with
  | nil =>
    simp only [receive, waiting]
    exact ⟨⟨[], [], rfl, rfl, List.append_nil _⟩, rfl, id⟩
  | cons edge rest =>
    simp only [receive, waiting]
    refine ⟨⟨[.observe edge], _, Node.runObserves s.node sinks [edge], rfl, ?_⟩, rfl, ?_⟩
    · rw [waiting]
      exact List.append_nil _
    · intro room
      rw [waiting] at room
      exact Nat.le_of_succ_le room

theorem pumpDelivers (s : Station) (sinks : Sinks) :
    Delivers s sinks [.handed s.pump.1] s.pump.2 sinks := by
  refine ⟨⟨_, _, Node.runObserves s.node sinks s.waiting, ?_, ?_⟩, rfl, fun _ => Nat.zero_le _⟩
  · rw [Node.reportsObserved]
    exact (List.append_nil _).symm
  · rw [Node.edgesObserved]
    rfl

theorem stepDelivers {now : Nat} {report : StepReport} {node : Node}
    (stepped : s.node.step sinks now = .ok (report, node, sinks')) :
    Delivers s sinks [.stepped report] { s with node } sinks' :=
  ⟨⟨_, _, Node.runStep stepped, rfl, List.append_nil _⟩, rfl, id⟩

theorem turnDelivers {now : Nat} {report : TurnReport}
    (turned : s.turn sinks now = .ok (report, s', sinks')) :
    Delivers s sinks [.turned report] s' sinks' := by
  obtain ⟨step, node, line, stepped, same⟩ := turnOk.mp turned
  cases same
  refine ⟨⟨_, _, Node.runTurn stepped, ?_, ?_⟩, rfl, fun _ => Nat.zero_le _⟩
  · rw [List.filterMap_append, Node.reportsObserved]
    rfl
  · rw [List.filterMap_append, Node.edgesObserved]
    exact (List.append_nil _).symm

theorem passOk {clock : Nat} {wake : Option Nat} {reply : Reply} :
    s.call sinks (.pass clock wake) = .ok (reply, s', sinks') ↔
      ∃ report, s.turn sinks clock = .ok (report, s', sinks') ∧ reply = .turned report ∧
        ∃ next, s'.node.wake clock = .ok next := by
  rw [call, Loop.turnWakes]
  constructor
  · intro called
    obtain ⟨⟨report, l⟩, passed, same⟩ := bindOk.mp called
    obtain ⟨⟨report, m, line⟩, turned, rest⟩ := bindOk.mp passed
    obtain ⟨next, asked, parts⟩ := bindOk.mp rest
    cases same
    cases parts
    exact ⟨report, turned, rfl, next, asked⟩
  · intro ⟨report, turned, same, next, asked⟩
    exact bindOk.mpr ⟨_, bindOk.mpr ⟨_, turned, bindOk.mpr ⟨next, asked, rfl⟩⟩, same ▸ rfl⟩

theorem stepCalled {now : Nat} {reply : Reply} :
    s.call sinks (.step now) = .ok (reply, s', sinks') ↔
      ∃ report node, s.node.step sinks now = .ok (report, node, sinks') ∧
        reply = .stepped report ∧ s' = { s with node } := by
  rw [call]
  constructor
  · intro called
    obtain ⟨⟨report, node, line⟩, stepped, same⟩ := bindOk.mp called
    cases same
    exact ⟨report, node, stepped, rfl, rfl⟩
  · intro ⟨report, node, stepped, same, still⟩
    exact bindOk.mpr ⟨_, stepped, same ▸ still ▸ rfl⟩

theorem turnCalled {now : Nat} {reply : Reply} :
    s.call sinks (.turn now) = .ok (reply, s', sinks') ↔
      ∃ report, s.turn sinks now = .ok (report, s', sinks') ∧ reply = .turned report := by
  rw [call]
  constructor
  · intro called
    obtain ⟨⟨report, m, line⟩, turned, same⟩ := bindOk.mp called
    cases same
    exact ⟨report, turned, rfl⟩
  · intro ⟨report, turned, same⟩
    exact bindOk.mpr ⟨_, turned, same ▸ rfl⟩

theorem callDelivers {c : Call} {reply : Reply} (called : s.call sinks c = .ok (reply, s', sinks')) :
    Delivers s sinks [reply] s' sinks' := by
  cases c with
  | post edge =>
    cases called
    exact postDelivers s sinks edge
  | receive =>
    cases called
    exact receiveDelivers s sinks
  | pump =>
    cases called
    exact pumpDelivers s sinks
  | step now =>
    obtain ⟨report, node, stepped, same, still⟩ := stepCalled.mp called
    exact same ▸ still ▸ stepDelivers stepped
  | turn now =>
    obtain ⟨report, turned, same⟩ := turnCalled.mp called
    exact same ▸ turnDelivers turned
  | pass clock wake =>
    obtain ⟨report, turned, same, _⟩ := passOk.mp called
    exact same ▸ turnDelivers turned

theorem deliversTrans {m : Station} {line : Sinks} {first later : List Reply}
    (front : Delivers s sinks first m line) (back : Delivers m line later s' sinks') :
    Delivers s sinks (first ++ later) s' sinks' := by
  obtain ⟨visits, told, ran, reports, order⟩ := front.edges
  obtain ⟨visits', told', ran', reports', order'⟩ := back.edges
  refine ⟨⟨visits ++ visits', told ++ told', ?_, ?_, ?_⟩, back.capacity.trans front.capacity, ?_⟩
  · exact Node.runAppend.mpr ⟨_, _, _, _, _, _, ran, ran', rfl⟩
  · rw [List.filterMap_append, List.flatMap_append, reports, reports']
  · rw [List.filterMap_append, List.filterMap_append, ← List.append_assoc, order, List.append_assoc,
      order', List.append_assoc]
  · intro room
    rw [← front.capacity]
    exact back.room (front.capacity ▸ front.room room)

theorem runDelivers {calls : List Call} {replies : List Reply}
    (ran : s.run sinks calls = .ok (replies, s', sinks')) : Delivers s sinks replies s' sinks' := by
  induction calls generalizing s sinks replies with
  | nil =>
    cases ran
    exact ⟨⟨[], [], rfl, rfl, List.append_nil _⟩, rfl, id⟩
  | cons c rest ih =>
    obtain ⟨⟨reply, m, line⟩, called, more⟩ := bindOk.mp ran
    obtain ⟨⟨later, last⟩, again, same⟩ := bindOk.mp more
    cases same
    exact deliversTrans (callDelivers called) (ih again)

theorem runCons {c : Call} {rest : List Call} {reply : Reply} {m : Station} {line : Sinks}
    {replies : List Reply} (called : s.call sinks c = .ok (reply, m, line))
    (ran : m.run line rest = .ok (replies, s', sinks')) :
    s.run sinks (c :: rest) = .ok (reply :: replies, s', sinks') :=
  bindOk.mpr ⟨_, called, bindOk.mpr ⟨_, ran, rfl⟩⟩

theorem receivesThen {calls : List Call} {replies : List Reply}
    (ran : s.pump.2.run sinks calls = .ok (replies, s', sinks')) :
    s.run sinks (List.replicate s.waiting.length .receive ++ calls) =
      .ok ((s.pump.1.map fun report => .handed [report]) ++ replies, s', sinks') := by
  obtain ⟨node, capacity, waiting⟩ := s
  induction waiting generalizing node with
  | nil => exact ran
  | cons edge rest ih => exact runCons rfl (ih (node.observe edge).2 ran)

theorem turnReceives {now : Nat} {report : TurnReport}
    (turned : s.turn sinks now = .ok (report, s', sinks')) :
    s.run sinks (List.replicate s.waiting.length .receive ++ [.step now]) =
      .ok ((report.edges.map fun edge => .handed [edge]) ++ [.stepped report.step], s', sinks') := by
  obtain ⟨step, node, line, stepped, same⟩ := turnOk.mp turned
  cases same
  exact receivesThen (runCons (stepCalled.mpr ⟨step, node, stepped, rfl, rfl⟩) rfl)

end

theorem parkedTakes (s : Station) (sinks : Sinks) (clock wake : Nat) :
    (Loop.mk s sinks clock (some wake)).takeEdge = s.receive := by
  unfold Loop.takeEdge receive
  cases waiting : s.waiting with
  | nil => rfl
  | cons edge rest => rfl

theorem pumpAfterReceive (s : Station) :
    s.pump = (s.receive.1 ++ s.receive.2.pump.1, s.receive.2.pump.2) := by
  have taken := (Loop.mk s .willing 0 (some 0)).takePump
  rw [parkedTakes] at taken
  exact Prod.ext taken.1.symm taken.2.symm

theorem turnAfterReceive (s : Station) (sinks : Sinks) (now : Nat) :
    s.turn sinks now = (s.receive.2.turn sinks now).map fun (report, out) =>
      (⟨s.receive.1 ++ report.edges, report.step⟩, out) := by
  unfold turn
  rw [s.pumpAfterReceive]
  dsimp only
  cases s.receive.2.pump.2.node.step sinks now <;> rfl

def Call.instant? : Call → Option Nat
  | step now | turn now | pass now _ => some now
  | post _ | receive | pump => none

section
variable {config : Config} {s : Station}

theorem postNode (s : Station) (edge : Edge) : (s.post edge).2.node = s.node := by
  obtain ⟨_, same⟩ | ⟨_, same⟩ := s.postCases edge <;> rw [same]

theorem receiveStands (stands : Stands config s.node) : Stands config s.receive.2.node := by
  unfold receive
  split
  · exact stands
  · exact Node.observeStands stands _

theorem callRoom (stands : Stands config s.node) (sinks : Sinks) {c : Call}
    (room : ∀ now ∈ c.instant?, config.Room now) :
    ∃ reply s' sinks', s.call sinks c = .ok (reply, s', sinks') ∧ Stands config s'.node := by
  cases c with
  | post edge => exact ⟨_, _, _, rfl, (s.postNode edge).symm ▸ stands⟩
  | receive => exact ⟨_, _, _, rfl, receiveStands stands⟩
  | pump => exact ⟨_, _, _, rfl, Node.observeAllStands stands s.waiting⟩
  | step now =>
    obtain ⟨report, node, line, stepped⟩ := Node.stepRoom stands (room now rfl) sinks
    exact ⟨_, _, line, stepCalled.mpr ⟨report, node, stepped, rfl, rfl⟩,
      Node.stepStands stands (room now rfl) stepped⟩
  | turn now =>
    obtain ⟨report, m, line, turned, stands⟩ := turnRoom stands (room now rfl) sinks
    exact ⟨_, m, line, turnCalled.mpr ⟨report, turned, rfl⟩, stands⟩
  | pass now wake =>
    obtain ⟨report, m, line, turned, stands⟩ := turnRoom stands (room now rfl) sinks
    have asked := Node.wakeRoom stands (room now rfl)
    exact ⟨_, m, line, passOk.mpr ⟨report, turned, rfl, asked⟩, stands⟩

theorem runRoom (stands : Stands config s.node) (sinks : Sinks) {calls : List Call}
    (room : ∀ c ∈ calls, ∀ now ∈ c.instant?, config.Room now) :
    ∃ replies s' sinks', s.run sinks calls = .ok (replies, s', sinks') ∧ Stands config s'.node := by
  induction calls generalizing s sinks with
  | nil => exact ⟨[], s, sinks, rfl, stands⟩
  | cons c rest ih =>
    obtain ⟨here, later⟩ := List.forall_mem_cons.mp room
    obtain ⟨reply, m, line, called, stands⟩ := callRoom stands sinks here
    obtain ⟨replies, s', sinks', ran, stands⟩ := ih stands line later
    exact ⟨reply :: replies, s', sinks', runCons called ran, stands⟩

end

theorem postFull {s : Station} (room : s.waiting.length ≤ s.capacity) (edge : Edge) :
    ((s.post edge).1 = false ↔ s.waiting.length = s.capacity) ∧
      ((s.post edge).1 = false → (s.post edge).2 = s) := by
  obtain ⟨free, same⟩ | ⟨full, same⟩ := s.postCases edge
  · rw [same]
    exact ⟨⟨nofun, fun full => absurd full (Nat.ne_of_lt free)⟩, nofun⟩
  · rw [same]
    exact ⟨⟨fun _ => Nat.le_antisymm room full, fun _ => rfl⟩, fun _ => rfl⟩

theorem postedReachNode (node : Node) (capacity : Nat) (sinks : Sinks) (calls : List Call) :
    (∀ replies s sinks', (start node capacity).run sinks calls = .ok (replies, s, sinks') →
      (∃ visits told, node.run sinks visits = .ok (told, s.node, sinks') ∧
        told.filterMap Node.Reply.edgeReport? = replies.flatMap Reply.reports ∧
        visits.filterMap Node.Call.edge? =
          (replies.flatMap Reply.reports).map EdgeReport.edge ∧
        visits.filterMap Node.Call.edge? ++ s.waiting = replies.filterMap Reply.accepted?) ∧
      (∀ edge, ((s.post edge).1 = false ↔ s.waiting.length = capacity) ∧
        ((s.post edge).1 = false → (s.post edge).2 = s)) ∧
      (∀ now report s'' sinks'', s.turn sinks' now = .ok (report, s'', sinks'') →
        s.run sinks' (List.replicate s.waiting.length .receive ++ [.step now]) =
          .ok ((report.edges.map fun edge => .handed [edge]) ++ [.stepped report.step], s'',
            sinks'')) ∧
      ∀ now wake edge rest, s.waiting = edge :: rest →
        let parked : Loop := ⟨s, sinks', now, some wake⟩
        parked.takeEdge = ([(s.node.observe edge).1],
          { s with node := (s.node.observe edge).2, waiting := rest }) ∧
        (parked.takeEdge.2.turn sinks' now).map Prod.snd = (s.turn sinks' now).map Prod.snd ∧
        parked.turn = s.turn sinks' now >>= fun (report, s'', sinks'') =>
          s''.node.wake now >>= fun wake => .ok (report, ⟨s'', sinks'', now, some wake⟩)) ∧
    (∀ config, Stands config node → (∀ c ∈ calls, ∀ now ∈ c.instant?, config.Room now) →
      ∃ replies s sinks', (start node capacity).run sinks calls = .ok (replies, s, sinks')) := by
  refine ⟨?_, ?_⟩
  · intro replies s sinks' ran
    have delivers := runDelivers ran
    refine ⟨?_, ?_, fun now report s'' sinks'' turned => turnReceives turned, ?_⟩
    · obtain ⟨visits, told, visited, reports, order⟩ := delivers.edges
      exact ⟨visits, told, visited, reports, reports ▸ (Node.runReports visited).symm, order.symm⟩
    · have same : s.capacity = capacity := delivers.capacity
      have room : s.waiting.length ≤ capacity := delivers.room (Nat.zero_le _)
      rw [← same] at room ⊢
      exact postFull room
    · intro now wake edge rest waiting parked
      have taken : parked.takeEdge = s.receive := parkedTakes s sinks' now wake
      refine ⟨?_, ?_, parked.turnWakes⟩
      · rw [taken, receive, waiting]
      · rw [taken, turnAfterReceive s sinks' now]
        cases s.receive.2.turn sinks' now <;> rfl
  · intro config stands room
    obtain ⟨replies, s, sinks', ran, _⟩ := runRoom (s := start node capacity) stands sinks room
    exact ⟨replies, s, sinks', ran⟩

def crowd : List Call :=
  [.post ⟨24, .rising, .ofMicros 100⟩, .post ⟨24, .falling, .ofMicros 700⟩,
    .post ⟨24, .rising, .ofMicros 800⟩, .receive, .post ⟨24, .rising, .ofMicros 900⟩,
    .pass 1000 (some 2000), .post ⟨24, .falling, .ofMicros 1500⟩, .post ⟨7, .rising, .ofMicros 1600⟩]

theorem crowdReachesNode :
    Stands .standard (.start .standard defaultCapacity 0) ∧ Config.standard.Room 1000 ∧
    ∃ replies s sinks',
      (start (.start .standard defaultCapacity 0) 2).run .willing crowd = .ok (replies, s, sinks') ∧
      (∃ visits told, (Node.start .standard defaultCapacity 0).run .willing visits =
          .ok (told, s.node, sinks') ∧
        visits.filterMap Node.Call.edge? = [⟨24, .rising, .ofMicros 100⟩,
          ⟨24, .falling, .ofMicros 700⟩, ⟨24, .rising, .ofMicros 900⟩]) ∧
      (s.post ⟨24, .rising, .ofMicros 1700⟩).2 = s ∧
      ((Loop.mk s sinks' 3000 (some 2000)).takeEdge.2.turn sinks' 3000).map Prod.snd =
        (s.turn sinks' 3000).map Prod.snd := by
  have stands := Node.startStands .standard defaultCapacity 0
  have room : Config.standard.Room 1000 := ⟨by decide, by decide, by decide⟩
  obtain ⟨reaches, runs⟩ := postedReachNode (.start .standard defaultCapacity 0) 2 .willing crowd
  have instants : ∀ c ∈ crowd, ∀ now ∈ c.instant?, now = 1000 := by decide
  obtain ⟨replies, s, sinks', ran⟩ := runs .standard stands fun c member now asked =>
    instants c member now asked ▸ room
  have seen : ((start (.start .standard defaultCapacity 0) 2).run .willing crowd).toOption.map
      (fun (replies, s, _) => ((replies.flatMap Reply.reports).map EdgeReport.edge, s.waiting)) =
      some ([⟨24, .rising, .ofMicros 100⟩, ⟨24, .falling, .ofMicros 700⟩,
        ⟨24, .rising, .ofMicros 900⟩], [⟨24, .falling, .ofMicros 1500⟩,
        ⟨7, .rising, .ofMicros 1600⟩]) := by decide +kernel
  rw [ran] at seen
  obtain ⟨handled, waiting⟩ := Prod.mk.inj (Option.some.inj seen)
  obtain ⟨⟨visits, told, visited, _, edges, _⟩, posts, _, passes⟩ := reaches replies s sinks' ran
  obtain ⟨full, still⟩ := posts ⟨24, .rising, .ofMicros 1700⟩
  obtain ⟨_, same, _⟩ := passes 3000 2000 _ _ waiting
  exact ⟨stands, room, replies, s, sinks', ran, ⟨visits, told, visited, edges.trans handled⟩,
    still (full.mpr (congrArg List.length waiting)), same⟩

end Station

end Rangefinder
