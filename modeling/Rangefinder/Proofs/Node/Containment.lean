import Rangefinder.Proofs.Node.Wire

/-! What the bus cannot reach. A core is a node without its outbox: it ranges, numbers and keeps time, and
has no bus to ask. Every run of a node is a run of its core, so that two nodes apart only in the
bus, the policy or the capacity range, number and keep time alike. A pace is less still, the
schedule and the heartbeat number; it runs on the instants of the steps alone. -/
namespace Rangefinder.Node
open Bus (FailurePolicy NodeId Outbox Transfer TransferId)
open Echo (LineEvent Measurement Ranger)
open Message (Numbering)

structure Account where
  measurement : Option Measurement
  activity : List LineEvent
  transfers : List Transfer
  deriving DecidableEq, Repr

def Reply.account (reply : Reply) : Account :=
  let transfers := reply.telegrams.map Telegram.transfer
  match reply with
  | observed report => ⟨report.measurement?, [], transfers⟩
  | stepped _ report => ⟨none, report.activity, transfers⟩

structure Core where
  ranger : Ranger
  numbering : Numbering
  schedule : Schedule
  line : Sink

def core (n : Node) (sinks : Sinks) : Core := ⟨n.ranger, n.numbering, n.schedule, sinks.trigger⟩

def inside (out : List Reply × Node × Sinks) : List Account × Core :=
  (out.1.map Reply.account, core out.2.1 out.2.2)

namespace Core

def tell (c : Core) (content : Content) : Transfer × Core :=
  let (transfer, numbering) := content.encode c.numbering
  (transfer, { c with numbering })

def observe (c : Core) (edge : Edge) : Account × Core :=
  let (hearing, ranger) := c.ranger.hear edge
  let c := { c with ranger }
  match hearing.measurement? with
  | none => (⟨none, [], []⟩, c)
  | some m =>
    let (transfer, c) := c.tell (.distance m)
    (⟨some m, [], [transfer]⟩, c)

def act (c : Core) (now : Nat) (due : Bool) (uptime? : Option UInt32) (schedule : Schedule) :
    Account × Core :=
  let (trigger, ranger, line) := rangeWhen due c.ranger c.line now
  let activity := trigger.toList.flatMap fun t => t.firing.activity
  let c := { c with ranger, schedule, line }
  match uptime? with
  | none => (⟨none, activity, []⟩, c)
  | some uptime =>
    let (transfer, c) := c.tell (.heartbeat uptime)
    (⟨none, activity, [transfer]⟩, c)

def call (c : Core) : Call → Except Overflow (Account × Core)
  | .observe edge => .ok (c.observe edge)
  | .step now => do
    let (due, s) ← c.schedule.takeTrigger now
    let (uptime?, s) ← s.takeHeartbeat now
    .ok (c.act now due uptime? s)

def run (c : Core) : List Call → Except Overflow (List Account × Core)
  | [] => .ok ([], c)
  | visit :: rest => do
    let (account, c) ← c.call visit
    let (accounts, c) ← c.run rest
    .ok (account :: accounts, c)

end Core

section
variable (n : Node) (sinks : Sinks)

theorem stepMaps {β : Type} (f : StepReport × Node × Sinks → β) (now : Nat) :
    (n.step sinks now).map f = n.schedule.takeTrigger now >>= fun (due, s) =>
      s.takeHeartbeat now >>= fun (uptime?, s) => .ok (f (n.act sinks now due uptime? s)) := by
  rw [stepAct]
  cases n.schedule.takeTrigger now with
  | error e => rfl
  | ok out =>
    simp only [bind, Except.bind]
    cases out.2.takeHeartbeat now <;> rfl

theorem observeInside (edge : Edge) :
    ((Reply.observed (n.observe edge).1).account, core (n.observe edge).2 sinks) =
      (core n sinks).observe edge := by
  unfold Core.observe
  rcases observeCases n edge with ⟨measured, same⟩ | ⟨m, measured, same⟩
  · simp [core, same, measured, Reply.account, Reply.telegrams, EdgeReport.measurement?]
  · simp [core, same, measured, Reply.account, Reply.telegrams, EdgeReport.measurement?, Core.tell,
      Content.encode, publishDistance, publish, Telegram.transfer]

theorem actInside (now : Nat) (due : Bool) (uptime? : Option UInt32) (s : Schedule) :
    let acted := n.act sinks now due uptime? s
    ((Reply.stepped now acted.1).account, core acted.2.1 acted.2.2) =
      (core n sinks).act now due uptime? s := by
  cases uptime? <;> rfl

theorem callInside (c : Call) :
    (n.call sinks c).map (fun out => (out.1.account, core out.2.1 out.2.2)) =
      (core n sinks).call c := by
  cases c with
  | observe edge => exact congrArg Except.ok (observeInside n sinks edge)
  | step now =>
    have stepped : (n.call sinks (.step now)).map
        (fun out => (out.1.account, core out.2.1 out.2.2)) =
        (n.step sinks now).map fun out =>
          ((Reply.stepped now out.1).account, core out.2.1 out.2.2) := by
      rw [call]
      cases n.step sinks now <;> rfl
    rw [stepped, stepMaps]
    simp only [actInside]
    rfl

theorem runInside (calls : List Call) :
    (n.run sinks calls).map inside = (core n sinks).run calls := by
  induction calls generalizing n sinks with
  | nil => rfl
  | cons c rest ih =>
    rw [run, Core.run, ← callInside]
    cases n.call sinks c with
    | error e => rfl
    | ok out =>
      obtain ⟨reply, m, line⟩ := out
      simp only [bind, Except.bind, Except.map, ← ih]
      cases m.run line rest <;> rfl

end

structure Pace where
  schedule : Schedule
  number : TransferId
  deriving DecidableEq, Repr

def pace (n : Node) : Pace := ⟨n.schedule, n.numbering.heartbeat⟩

def mark (beat : Beat) : UInt32 × TransferId :=
  (beat.uptime, beat.publication.transfer.transferId)

def Reply.beat? : Reply → Option (Option (UInt32 × TransferId))
  | observed _ => none
  | stepped _ report => some (report.beat.map mark)

def cadence (out : List Reply × Node × Sinks) : List (Option (UInt32 × TransferId)) × Pace :=
  (out.1.filterMap Reply.beat?, out.2.1.pace)

namespace Pace

def act (p : Pace) (uptime? : Option UInt32) (schedule : Schedule) :
    Option (UInt32 × TransferId) × Pace :=
  match uptime? with
  | none => (none, { p with schedule })
  | some uptime => (some (uptime, p.number), ⟨schedule, p.number.next⟩)

def step (p : Pace) (now : Nat) : Except Overflow (Option (UInt32 × TransferId) × Pace) := do
  let (_, s) ← p.schedule.takeTrigger now
  let (uptime?, s) ← s.takeHeartbeat now
  .ok (p.act uptime? s)

def run (p : Pace) : List Nat → Except Overflow (List (Option (UInt32 × TransferId)) × Pace)
  | [] => .ok ([], p)
  | now :: rest => do
    let (beat, p) ← p.step now
    let (beats, p) ← p.run rest
    .ok (beat :: beats, p)

end Pace

section
variable (n : Node) (sinks : Sinks)

theorem observePace (edge : Edge) : (n.observe edge).2.pace = n.pace := by
  rw [pace, pace, observeSchedule, observeHeartbeat]

theorem actPace (now : Nat) (due : Bool) (uptime? : Option UInt32) (s : Schedule) :
    let acted := n.act sinks now due uptime? s
    (acted.1.beat.map mark, acted.2.1.pace) = n.pace.act uptime? s := by
  cases uptime? <;> rfl

theorem stepPace (now : Nat) :
    (n.step sinks now).map (fun out => (out.1.beat.map mark, out.2.1.pace)) =
      n.pace.step now := by
  rw [stepMaps]
  simp only [actPace n sinks now]
  rfl

theorem runPace (calls : List Call) :
    (n.run sinks calls).map cadence = n.pace.run (calls.filterMap Call.instant?) := by
  induction calls generalizing n sinks with
  | nil => rfl
  | cons c rest ih =>
    cases c with
    | observe edge =>
      have instants : (Call.observe edge :: rest).filterMap Call.instant? =
        rest.filterMap Call.instant? := rfl
      rw [instants, ← observePace n edge, ← ih _ sinks]
      simp only [run, call, bind, Except.bind]
      cases (n.observe edge).2.run sinks rest <;> rfl
    | step now =>
      have instants : (Call.step now :: rest).filterMap Call.instant? =
        now :: rest.filterMap Call.instant? := rfl
      rw [instants, Pace.run, ← stepPace n sinks]
      simp only [run, call, bind, Except.bind]
      cases n.step sinks now with
      | error e => rfl
      | ok out =>
        obtain ⟨report, m, line⟩ := out
        simp only [Except.map, ← ih _ line]
        cases m.run line rest <;> rfl

end

section
variable {config : Config} {capacity boot : Nat} {sinks sinks' : Sinks} {calls : List Call}
  {replies : List Reply} {n : Node}

theorem sentTransfers (ran : (start config capacity boot).run sinks calls = .ok (replies, n, sinks'))
    (retry : config.policy = .retry) (taken : ∀ t ∈ telegrams replies, t.admitted)
    (empty : n.outbox.frames = []) :
    (ledger replies n sinks').sent =
      ((replies.map Reply.account).flatMap Account.transfers).flatMap (·.frames config.node) := by
  have order := (tellsExchange (runTells ran)).frames
  have all : admitted replies = telegrams replies := List.filter_eq_self.mpr taken
  have told : (replies.map Reply.account).flatMap Account.transfers =
      (telegrams replies).map Telegram.transfer := by
    rw [telegrams, List.flatMap_map, List.map_flatMap]
    congr 1
    funext reply
    cases reply <;> rfl
  have left : (ledger replies n sinks').outbox.frames = [] := empty
  rw [transfersLedger, all, ← told, left, List.append_nil] at order
  rw [← departedSent ran retry]
  exact order.symm

end

theorem failuresContained (config : Config) (policy : FailurePolicy) (capacity capacity' boot : Nat)
    (bus bus' line : Sink) :
    let config' := { config with policy }
    (∀ calls, ((start config capacity boot).run ⟨bus, line⟩ calls).map inside =
      ((start config' capacity' boot).run ⟨bus', line⟩ calls).map inside) ∧
    (∀ calls replies n sinks replies' n' sinks',
      (start config capacity boot).run ⟨bus, line⟩ calls = .ok (replies, n, sinks) →
      (start config' capacity' boot).run ⟨bus', line⟩ calls = .ok (replies', n', sinks') →
      config.policy = .retry → config'.policy = .retry →
      (∀ t ∈ telegrams replies, t.admitted) → (∀ t ∈ telegrams replies', t.admitted) →
      n.outbox.frames = [] → n'.outbox.frames = [] →
      (ledger replies n sinks).sent = (ledger replies' n' sinks').sent) ∧
    (∀ node echoLine line' calls calls',
      calls.filterMap Call.instant? = calls'.filterMap Call.instant? →
      ((start config capacity boot).run ⟨bus, line⟩ calls).map cadence =
        ((start { config' with node, echoLine } capacity' boot).run ⟨bus', line'⟩ calls').map
          cadence) ∧
    ∀ calls, (∀ now, .step now ∈ calls → config.Room now) →
      ∃ replies n sinks,
        (start config capacity boot).run ⟨bus, line⟩ calls = .ok (replies, n, sinks) := by
  intro config'
  have alike : ∀ calls, ((start config capacity boot).run ⟨bus, line⟩ calls).map inside =
      ((start config' capacity' boot).run ⟨bus', line⟩ calls).map inside := by
    intro calls
    rw [runInside, runInside]
    rfl
  refine ⟨alike, ?_, ?_, ?_⟩
  · intro calls replies n sinks replies' n' sinks' ran ran' retry retry' taken taken' empty empty'
    have same := alike calls
    rw [ran, ran'] at same
    have accounts : replies.map Reply.account = replies'.map Reply.account :=
      congrArg Prod.fst (Except.ok.inj same)
    rw [sentTransfers ran retry taken empty, sentTransfers ran' retry' taken' empty', accounts]
  · intro node echoLine line' calls calls' instants
    rw [runPace, runPace, instants]
    rfl
  · intro calls room
    obtain ⟨replies, n, sinks, ran, _⟩ :=
      runRoom (startStands config capacity boot) ⟨bus, line⟩ room
    exact ⟨replies, n, sinks, ran⟩

theorem containedRefusal :
    Config.standard.Room 5000 ∧
    let calls := [Call.step 0, .observe ⟨24, .rising, .ofMicros 100⟩,
      .observe ⟨24, .falling, .ofMicros 700⟩, .step 5000]
    let late := Sink.willing.script [false] true
    (∃ replies n sinks replies' n' sinks',
      (start .standard defaultCapacity 0).run ⟨.willing, .willing⟩ calls =
        .ok (replies, n, sinks) ∧
      (start .standard 2 0).run ⟨late, .willing⟩ calls = .ok (replies', n', sinks') ∧
      sinks.bus.calls ≠ sinks'.bus.calls ∧
      (ledger replies n sinks).sent = (ledger replies' n' sinks').sent ∧
      (ledger replies n sinks).sent.length = 2) ∧
    ((start .standard defaultCapacity 0).run ⟨.willing, .willing⟩ calls).map cadence =
      ((start { Config.standard with node := .truncate 7, echoLine := 3 } 2 0).run
        ⟨late, Sink.willing.script [] false⟩ [.step 0, .step 5000]).map cadence := by
  have room : Config.standard.Room 5000 := ⟨by decide, by decide, by decide⟩
  refine ⟨room, ?_⟩
  intro calls late
  have rooms : ∀ now, .step now ∈ calls → Config.standard.Room now :=
    roomsBefore room (by decide)
  obtain ⟨_, sends, paces, runs⟩ :=
    failuresContained .standard .retry defaultCapacity 2 0 .willing late .willing
  obtain ⟨_, _, _, runs'⟩ :=
    failuresContained .standard .retry 2 defaultCapacity 0 late .willing .willing
  obtain ⟨replies, n, sinks, ran⟩ := runs calls rooms
  obtain ⟨replies', n', sinks', ran'⟩ := runs' calls rooms
  refine ⟨⟨replies, n, sinks, replies', n', sinks', ran, ran', ?_⟩, ?_⟩
  · have whole : ((start .standard defaultCapacity 0).run ⟨.willing, .willing⟩ calls).toOption.map
        (fun out => ((telegrams out.1).all Telegram.admitted, out.2.1.outbox.frames,
          out.2.2.bus.calls, (ledger out.1 out.2.1 out.2.2).sent.length)) =
        some (true, [], 2, 2) := by decide +kernel
    have whole' : ((start .standard 2 0).run ⟨late, .willing⟩ calls).toOption.map
        (fun out => ((telegrams out.1).all Telegram.admitted, out.2.1.outbox.frames,
          out.2.2.bus.calls)) = some (true, [], 3) := by decide +kernel
    rw [ran] at whole
    rw [ran'] at whole'
    simp only [Except.toOption, Option.map_some, Option.some.injEq, Prod.mk.injEq, List.all_eq_true]
      at whole whole'
    obtain ⟨taken, empty, offers, count⟩ := whole
    obtain ⟨taken', empty', offers'⟩ := whole'
    have same := sends calls replies n sinks replies' n' sinks' ran ran' rfl rfl taken taken' empty
      empty'
    exact ⟨by rw [offers, offers']; decide, same, count⟩
  · exact paces _ _ _ _ _ rfl

end Rangefinder.Node
