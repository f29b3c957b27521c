import Rangefinder.Proofs.Node.Inbox
import Rangefinder.Proofs.Node.Wire

/-! Readings that are never refused. A measurement takes two edges, and only one of them may be older
than the inbox that ends in it: a full inbox completes at most half as many measurements as it holds
edges, rounded up. An outbox with room for these and a heartbeat refuses nothing if every step
clears it, and then a step offers to the bus just what was told since the last one. -/
namespace Rangefinder
open Bus (Frame Offer Outbox)
open Node (Carries Content Encodes Stands Telegram)

namespace Node

section
variable {n n' : Node} {sinks sinks' : Sinks} {now : Nat} {report : StepReport}

theorem observeTold (n : Node) (edge : Edge) :
    (Reply.observed (n.observe edge).1).telegrams.map Telegram.content =
        (n.observe edge).1.measurement?.toList.map .distance ∧
      (Reply.observed (n.observe edge).1).telegrams.map Telegram.publication =
        (n.observe edge).1.publication.toList := by
  obtain ⟨measured, same⟩ | ⟨m, measured, same⟩ := observeCases n edge <;>
    simp [same, Reply.telegrams, EdgeReport.measurement?, measured]

theorem observeAllTold (n : Node) (edges : List Edge) :
    (telegrams ((n.observeAll edges).1.map .observed)).map Telegram.content =
        ((n.observeAll edges).1.filterMap EdgeReport.measurement?).map .distance ∧
      (telegrams ((n.observeAll edges).1.map .observed)).map Telegram.publication =
        (n.observeAll edges).1.filterMap EdgeReport.publication := by
  induction edges generalizing n with
  | nil => exact ⟨rfl, rfl⟩
  | cons edge rest ih =>
    obtain ⟨contents, publications⟩ := ih (n.observe edge).2
    obtain ⟨content, publication⟩ := observeTold n edge
    simp only [telegrams] at contents publications
    simp only [observeAll, telegrams, List.map_cons, List.flatMap_cons, List.map_append, content,
      publication, contents, publications, List.filterMap_cons]
    constructor
    · cases (n.observe edge).1.measurement? <;> rfl
    · cases (n.observe edge).1.publication <;> rfl

/-- In half frames: a frame in the outbox counts two, and a rise that waits for its fall counts one. -/
def load (n : Node) : Nat := 2 * n.outbox.frames.length + n.ranger.cycle.risenAt.toList.length

theorem addFree (c : Content) (numbering : Message.Numbering) {q : Outbox}
    (free : q.frames.length < q.capacity) :
    q.add (c.encode numbering).1 =
      (.queued 1, { q with frames := q.frames ++ (c.encode numbering).1.frames q.source }) := by
  have one := Bus.framesNeededOne.mpr (c.encodeShort numbering)
  have room : Bus.framesNeeded (c.encode numbering).1.payload.length ≤ q.available := by
    rw [one, Outbox.available]
    omega
  rw [Outbox.addQueued room, one]

theorem observeLoad (n : Node) (edge : Edge) (room : n.load < 2 * n.outbox.capacity) :
    (∀ t ∈ (Reply.observed (n.observe edge).1).telegrams, t.admitted = true) ∧
      (n.observe edge).2.load ≤ n.load + 1 ∧
      (n.observe edge).2.outbox.capacity = n.outbox.capacity := by
  have counted := n.ranger.hearMeasures edge
  obtain ⟨measured, same⟩ | ⟨m, measured, same⟩ := observeCases n edge
  · rw [measured] at counted
    rw [same]
    refine ⟨by simp [Reply.telegrams, EdgeReport.measurement?, measured], ?_, rfl⟩
    simp only [Option.toList_none, List.length_nil, Nat.mul_zero, Nat.zero_add] at counted
    simp only [load]
    omega
  · rw [measured, Option.toList_some, List.length_singleton] at counted
    have free : n.outbox.frames.length < n.outbox.capacity := by
      simp only [load] at room
      omega
    have added : n.outbox.add (n.numbering.ofDistance m.centimetres).1 = _ :=
      addFree (.distance m) n.numbering free
    have one := Bus.framesSingle ((Content.distance m).encodeShort n.numbering) n.outbox.source
    simp only [publishDistance, publish, added] at same
    rw [same]
    refine ⟨?_, ?_, rfl⟩
    · simp [Reply.telegrams, EdgeReport.measurement?, measured, Telegram.admitted]
    · simp only [load, one, List.length_append, List.length_singleton]
      omega

theorem observeAllLoad {n : Node} {edges : List Edge}
    (room : n.load + edges.length ≤ 2 * n.outbox.capacity) :
    (∀ t ∈ telegrams ((n.observeAll edges).1.map .observed), t.admitted = true) ∧
      (n.observeAll edges).2.load ≤ n.load + edges.length ∧
      (n.observeAll edges).2.outbox.capacity = n.outbox.capacity := by
  induction edges generalizing n with
  | nil => exact ⟨nofun, Nat.le_refl _, rfl⟩
  | cons edge rest ih =>
    rw [List.length_cons] at room ⊢
    obtain ⟨taken, load, capacity⟩ := observeLoad n edge (by omega)
    have later : (n.observe edge).2.load + rest.length ≤
        2 * (n.observe edge).2.outbox.capacity := by
      rw [capacity]
      omega
    obtain ⟨taken', load', capacity'⟩ := ih later
    refine ⟨?_, ?_, capacity'.trans capacity⟩
    · intro t member
      obtain here | there := List.mem_append.mp member
      · exact taken t here
      · exact taken' t there
    · exact Nat.le_trans load' (by omega)

theorem stepTold (stepped : n.step sinks now = .ok (report, n', sinks')) :
    (Reply.stepped now report).telegrams.map Telegram.content =
        (if n.schedule.nextHeartbeat ≤ now then [.heartbeat (n.schedule.uptime now)] else []) ∧
      (Reply.stepped now report).telegrams.map Telegram.publication =
        report.beat.toList.map Beat.publication := by
  have uptime := (stepStepped stepped).schedule.uptime
  have beats : (Reply.stepped now report).telegrams.map Telegram.content =
      (report.beat.map Beat.uptime).toList.map .heartbeat := by
    rw [Reply.telegrams]
    cases report.beat <;> rfl
  refine ⟨?_, ?_⟩
  · rw [beats, uptime]
    split <;> rfl
  · rw [Reply.telegrams, List.map_map]
    rfl

theorem stepTakes (stepped : n.step sinks now = .ok (report, n', sinks'))
    (free : n.outbox.frames.length < n.outbox.capacity) :
    ∀ t ∈ (Reply.stepped now report).telegrams, t.admitted = true := by
  obtain ⟨due, s, uptime?, s', _, _, same⟩ := stepOk.mp stepped
  cases same
  cases uptime? with
  | none => exact nofun
  | some uptime =>
    have added : n.outbox.add (n.numbering.ofHeartbeat uptime).1 = _ :=
      addFree (.heartbeat uptime) n.numbering free
    have taken : ∀ t ∈ [Telegram.mk (.heartbeat uptime) ⟨(n.numbering.ofHeartbeat uptime).1,
        (n.outbox.add (n.numbering.ofHeartbeat uptime).1).1⟩], t.admitted = true := by
      rw [added]
      simp [Telegram.admitted]
    exact taken

theorem stepDrains (stepped : n.step sinks now = .ok (report, n', sinks')) :
    ∃ q : Outbox, q.policy = n.outbox.policy ∧
      q.drain sinks.bus = (report.drain, n'.outbox, sinks'.bus) := by
  obtain ⟨due, s, uptime?, s', _, _, same⟩ := stepOk.mp stepped
  cases same
  cases uptime? with
  | none => exact ⟨n.outbox, rfl, rfl⟩
  | some uptime =>
    let transfer := (n.numbering.ofHeartbeat uptime).1
    exact ⟨(n.outbox.add transfer).2, (Outbox.exchangeAdd n.outbox sinks.bus transfer).policy, rfl⟩

theorem outboxDrained {β : Type} {f : Outbox.Reply → List β}
    (silent : ∀ transfer admission, f (.added transfer admission) = [])
    (reports : List EdgeReport) (now : Nat) (report : StepReport) :
    ((reports.map .observed ++ [.stepped now report] : List Reply).flatMap Reply.outbox).flatMap f =
      f (.drained report.drain) := by
  have quiet : ∀ telegrams : List Telegram, (telegrams.map Telegram.reply).flatMap f = [] := by
    intro telegrams
    rw [List.flatMap_map]
    exact List.flatMap_eq_nil_iff.mpr fun t _ => silent _ _
  have early : ((reports.map Reply.observed).flatMap Reply.outbox).flatMap f = [] := by
    rw [List.flatMap_assoc, List.flatMap_map]
    refine List.flatMap_eq_nil_iff.mpr fun report _ => ?_
    simp only [Reply.outbox, List.append_nil, quiet]
  have last : ((Reply.stepped now report).outbox).flatMap f = f (.drained report.drain) := by
    simp only [Reply.outbox, List.flatMap_append, quiet, List.nil_append, List.flatMap_singleton]
  rw [List.flatMap_append, List.flatMap_append, early, List.flatMap_singleton, last, List.nil_append]

end

def turnReplies (edges : List EdgeReport) (now : Nat) (report : StepReport) : List Reply :=
  edges.map .observed ++ [.stepped now report]

theorem turnTelegrams (edges : List EdgeReport) (now : Nat) (report : StepReport) :
    telegrams (turnReplies edges now report) =
      telegrams (edges.map .observed) ++ (Reply.stepped now report).telegrams := by
  rw [turnReplies, telegrams, List.flatMap_append, List.flatMap_singleton]
  rfl

section
variable {n n' : Node} {sinks sinks' : Sinks} {edges : List Edge} {now : Nat} {report : StepReport}
  (stepped : (n.observeAll edges).2.step sinks now = .ok (report, n', sinks'))
include stepped

theorem turnTells : Tells n sinks (turnReplies (n.observeAll edges).1 now report) n' sinks' :=
  runTells (runTurn stepped)

theorem turnTold :
    (telegrams (turnReplies (n.observeAll edges).1 now report)).map Telegram.content =
        ((n.observeAll edges).1.filterMap EdgeReport.measurement?).map .distance ++
          (if n.schedule.nextHeartbeat ≤ now then [.heartbeat (n.schedule.uptime now)] else []) ∧
      (telegrams (turnReplies (n.observeAll edges).1 now report)).map Telegram.publication =
        (n.observeAll edges).1.filterMap EdgeReport.publication ++
          report.beat.toList.map Beat.publication := by
  obtain ⟨contents, publications⟩ := observeAllTold n edges
  obtain ⟨content, publication⟩ := stepTold stepped
  rw [observeAllSchedule] at content
  rw [turnTelegrams, List.map_append, List.map_append, contents, publications, content, publication]
  exact ⟨rfl, rfl⟩

theorem turnTakes (empty : n.outbox.frames = [])
    (room : (edges.length + 1) / 2 < n.outbox.capacity) :
    ∀ t ∈ telegrams (turnReplies (n.observeAll edges).1 now report), t.admitted = true := by
  have first : n.load ≤ 1 := by
    rw [load, empty]
    cases n.ranger.cycle.risenAt <;> simp
  have fits : n.load + edges.length ≤ 2 * n.outbox.capacity := by omega
  obtain ⟨taken, last, capacity⟩ := observeAllLoad fits
  have free : (n.observeAll edges).2.outbox.frames.length <
      (n.observeAll edges).2.outbox.capacity := by
    rw [capacity]
    rw [load] at last
    omega
  intro t member
  rw [turnTelegrams] at member
  obtain early | late := List.mem_append.mp member
  · exact taken t early
  · exact stepTakes stepped free t late

theorem turnRejects
    (taken : ∀ t ∈ telegrams (turnReplies (n.observeAll edges).1 now report), t.admitted = true) :
    n'.outbox.stats.rejectedTransfers = n.outbox.stats.rejectedTransfers := by
  have none : ∀ t ∈ telegrams (turnReplies (n.observeAll edges).1 now report),
      ¬ (!t.admitted) = true := by
    intro t member
    simp [taken t member]
  have counted := tellsRejected (turnTells stepped)
  rw [List.countP_eq_zero.mpr none] at counted
  exact counted.trans (UInt32.add_zero _)

theorem turnClears (clears : Outbox.Clears n.outbox.policy sinks.bus) :
    report.drain.offers.filterMap Offer.departed? = report.drain.offers.map Offer.frame ∧
      n'.outbox.frames = [] := by
  obtain ⟨q, policy, drained⟩ := stepDrains stepped
  have kept : (n.observeAll edges).2.outbox.policy = n.outbox.policy :=
    (tellsExchange (runTells (runObserves n sinks edges))).policy
  rw [← kept, ← policy] at clears
  have cleared := Outbox.drainClears clears
  rwa [drained] at cleared

theorem turnOffers (empty : n.outbox.frames = [])
    (clears : Outbox.Clears n.outbox.policy sinks.bus)
    (taken : ∀ t ∈ telegrams (turnReplies (n.observeAll edges).1 now report), t.admitted = true) :
    report.drain.offers.map Offer.frame =
        (telegrams (turnReplies (n.observeAll edges).1 now report)).map (·.frame n.outbox.source) ∧
      (report.drain.offers.map fun offer => offer.sent?.isSome) =
        sinks.bus.answers report.drain.offers.length ∧
      sinks'.bus = sinks.bus.advance report.drain.offers.length := by
  have tells := turnTells stepped
  have exchange := tellsExchange tells
  obtain ⟨departs, left⟩ := turnClears stepped clears
  have departed : (ledger (turnReplies (n.observeAll edges).1 now report) n' sinks').departed =
      report.drain.offers.map Offer.frame :=
    (outboxDrained (fun _ _ => rfl) _ now report).trans departs
  have trials : (ledger (turnReplies (n.observeAll edges).1 now report) n' sinks').trials =
      report.drain.offers.map fun offer => (offer.frame, offer.sent?.isSome) :=
    outboxDrained (fun _ _ => rfl) _ now report
  have all : admitted (turnReplies (n.observeAll edges).1 now report) =
      telegrams (turnReplies (n.observeAll edges).1 now report) := List.filter_eq_self.mpr taken
  have still : (ledger (turnReplies (n.observeAll edges).1 now report) n' sinks').outbox.frames = [] :=
    left
  refine ⟨?_, ?_, ?_⟩
  · have order := exchange.frames
    rw [transfersLedger, all, List.flatMap_map,
      framesTelegrams fun t member => encodesEach tells.encodes member, departed, empty, still,
      List.append_nil, List.nil_append] at order
    exact order.symm
  · have answers := exchange.answers
    rwa [trials, List.map_map, List.length_map] at answers
  · have bus := exchange.bus
    rwa [trials, List.length_map] at bus

end

end Node

namespace Station

def Call.inTurns : Call → Bool
  | post _ | turn _ | pass .. => true
  | receive | pump | step _ => false

/-- A turn in which nothing is lost: `told` is all that the node had to publish, and the bus is offered
the frame of each telegram once, in order. -/
structure Flushes (config : Config) (s : Station) (sinks : Sinks) (now : Nat) (report : TurnReport)
    (s' : Station) (sinks' : Sinks) (told : List Telegram) : Prop where
  edges : report.edges.map EdgeReport.edge = s.waiting
  contents : told.map Telegram.content =
    (report.edges.filterMap EdgeReport.measurement?).map .distance ++
      if s.node.schedule.nextHeartbeat ≤ now then
        [.heartbeat (s.node.schedule.uptime now)]
      else []
  publications : told.map Telegram.publication =
    report.edges.filterMap EdgeReport.publication ++ report.step.beat.toList.map Beat.publication
  encodes : Encodes s.node.numbering told s'.node.numbering
  taken : ∀ t ∈ told, t.admitted = true ∧
    t.transfer.frames config.node = [t.frame config.node] ∧
    Carries config.node t (t.frame config.node)
  offers : report.step.drain.offers.map Offer.frame = told.map (·.frame config.node)
  answers : (report.step.drain.offers.map fun offer => offer.sent?.isSome) =
    sinks.bus.answers told.length
  bus : sinks'.bus = sinks.bus.advance told.length
  empty : s'.node.outbox.frames = []

structure Clear (config : Config) (s : Station) (sinks : Sinks) : Prop where
  source : s.node.outbox.source = config.node
  clears : Outbox.Clears s.node.outbox.policy sinks.bus
  room : (s.capacity + 1) / 2 < s.node.outbox.capacity
  waiting : s.waiting.length ≤ s.capacity
  empty : s.node.outbox.frames = []
  rejected : s.node.outbox.stats.rejectedTransfers = 0

section
variable {config : Config} {s s' : Station} {sinks sinks' : Sinks}

theorem clearTakes {now : Nat} {report : StepReport} {node : Node} (clear : Clear config s sinks)
    (stepped : (s.node.observeAll s.waiting).2.step sinks now = .ok (report, node, sinks')) :
    ∀ t ∈ Node.telegrams (Node.turnReplies (s.node.observeAll s.waiting).1 now report),
      t.admitted = true := by
  have half : (s.waiting.length + 1) / 2 < s.node.outbox.capacity :=
    Nat.lt_of_le_of_lt (Nat.div_le_div_right (Nat.succ_le_succ clear.waiting)) clear.room
  exact Node.turnTakes stepped clear.empty half

theorem turnFlushes {now : Nat} {report : TurnReport} (clear : Clear config s sinks)
    (turned : s.turn sinks now = .ok (report, s', sinks')) :
    ∃ told, Flushes config s sinks now report s' sinks' told := by
  obtain ⟨step, node, line, stepped, same⟩ := turnOk.mp turned
  cases same
  have tells := Node.turnTells stepped
  have taken := clearTakes clear stepped
  obtain ⟨_, left⟩ := Node.turnClears stepped clear.clears
  obtain ⟨contents, publications⟩ := Node.turnTold stepped
  obtain ⟨offers, answers, bus⟩ := Node.turnOffers stepped clear.empty clear.clears taken
  have count := congrArg List.length offers
  rw [List.length_map, List.length_map] at count
  rw [clear.source] at offers
  rw [count] at answers bus
  refine ⟨_, ?_, contents, publications, tells.encodes, ?_, offers, answers, bus, left⟩
  · exact Node.observeAllEdges s.node s.waiting
  · intro t member
    obtain ⟨numbering, own⟩ := Node.encodesEach tells.encodes member
    exact ⟨taken t member, Node.framesTelegram own _, Node.frameCarries own _⟩

theorem turnClear {now : Nat} {report : TurnReport} (clear : Clear config s sinks)
    (turned : s.turn sinks now = .ok (report, s', sinks')) : Clear config s' sinks' := by
  obtain ⟨step, node, line, stepped, same⟩ := turnOk.mp turned
  cases same
  have exchange := Node.tellsExchange (Node.turnTells stepped)
  have policy : node.outbox.policy = s.node.outbox.policy := exchange.policy
  have capacity : node.outbox.capacity = s.node.outbox.capacity := exchange.capacity
  have bus : sinks'.bus.accepts = sinks.bus.accepts := by
    have advanced := congrArg Sink.accepts exchange.bus
    exact advanced
  have rejected := Node.turnRejects stepped (clearTakes clear stepped)
  constructor
  case source => exact exchange.source.trans clear.source
  case clears =>
    rw [Outbox.Clears, policy, bus]
    exact clear.clears
  case room =>
    rw [capacity]
    exact clear.room
  case waiting => exact Nat.zero_le _
  case empty => exact (Node.turnClears stepped clear.clears).2
  case rejected => exact rejected.trans clear.rejected

theorem postClear (clear : Clear config s sinks) (edge : Edge) :
    Clear config (s.post edge).2 sinks := by
  obtain ⟨free, same⟩ | ⟨_, same⟩ := s.postCases edge
  · rw [same]
    exact { clear with waiting := by rwa [List.length_append] }
  · rwa [same]

theorem callClear {c : Call} {reply : Reply} (clear : Clear config s sinks) (turns : c.inTurns = true)
    (called : s.call sinks c = .ok (reply, s', sinks')) : Clear config s' sinks' := by
  cases c with
  | post edge =>
    cases called
    exact postClear clear edge
  | turn now =>
    obtain ⟨report, turned, _⟩ := turnCalled.mp called
    exact turnClear clear turned
  | pass clock wake =>
    obtain ⟨report, turned, _⟩ := passOk.mp called
    exact turnClear clear turned
  | receive => exact nomatch turns
  | pump => exact nomatch turns
  | step => exact nomatch turns

theorem runClear {calls : List Call} {replies : List Reply} (clear : Clear config s sinks)
    (turns : ∀ c ∈ calls, c.inTurns = true)
    (ran : s.run sinks calls = .ok (replies, s', sinks')) : Clear config s' sinks' := by
  induction calls generalizing s sinks replies with
  | nil =>
    cases ran
    exact clear
  | cons c rest ih =>
    obtain ⟨here, later⟩ := List.forall_mem_cons.mp turns
    obtain ⟨⟨reply, m, line⟩, called, more⟩ := bindOk.mp ran
    obtain ⟨⟨told, last⟩, again, same⟩ := bindOk.mp more
    cases same
    exact ih (callClear clear here called) later again

end

theorem turnsRefuseNothing (config : Config) (capacity inbox boot : Nat) (sinks : Sinks)
    (room : (inbox + 1) / 2 + 1 ≤ capacity) (clears : Outbox.Clears config.policy sinks.bus)
    (calls : List Call) (turns : ∀ c ∈ calls, c.inTurns = true) :
    (∀ replies s sinks',
      (start (.start config capacity boot) inbox).run sinks calls = .ok (replies, s, sinks') →
      s.node.outbox.frames = [] ∧ s.node.outbox.stats.rejectedTransfers = 0 ∧
      ∀ now report s'' sinks'', s.turn sinks' now = .ok (report, s'', sinks'') →
        ∃ told, Flushes config s sinks' now report s'' sinks'' told) ∧
    ((∀ c ∈ calls, ∀ now ∈ c.instant?, config.Room now) → ∃ replies s sinks',
      (start (.start config capacity boot) inbox).run sinks calls = .ok (replies, s, sinks')) := by
  refine ⟨?_, ?_⟩
  · intro replies s sinks' ran
    have fresh : Clear config (start (.start config capacity boot) inbox) sinks :=
      ⟨rfl, clears, room, Nat.zero_le _, rfl, rfl⟩
    have clear := runClear fresh turns ran
    exact ⟨clear.empty, clear.rejected, fun now report s'' sinks'' turned =>
      turnFlushes clear turned⟩
  · intro fits
    have stands := Node.startStands config capacity boot
    obtain ⟨replies, s, sinks', ran, _⟩ := runRoom (s := start _ inbox) stands sinks fits
    exact ⟨replies, s, sinks', ran⟩

def dropping : Config := { Config.standard with policy := .drop }

def deaf : Sinks := ⟨⟨fun _ => false, 0⟩, .willing⟩

def echoes : List Call :=
  [.post ⟨24, .rising, .ofMicros 100⟩, .turn 0, .post ⟨24, .falling, .ofMicros 700⟩,
    .post ⟨24, .rising, .ofMicros 900⟩, .post ⟨24, .falling, .ofMicros 1500⟩]

theorem echoesTold :
    (3 + 1) / 2 + 1 ≤ 3 ∧ Outbox.Clears dropping.policy deaf.bus ∧
    (∀ c ∈ echoes, c.inTurns = true) ∧ dropping.Room 0 ∧
    ∃ replies s sinks', (start (.start dropping 3 0) 3).run deaf echoes = .ok (replies, s, sinks') ∧
      ∃ report s'' sinks'' told, s.turn sinks' 1000000 = .ok (report, s'', sinks'') ∧
        Flushes dropping s sinks' 1000000 report s'' sinks'' told ∧ told.length = 3 := by
  have clears : Outbox.Clears dropping.policy deaf.bus := .inr rfl
  have turns : ∀ c ∈ echoes, c.inTurns = true := by decide
  have room : dropping.Room 0 := ⟨by decide, by decide, by decide⟩
  have instants : ∀ c ∈ echoes, ∀ now ∈ c.instant?, now = 0 := by decide
  obtain ⟨flushes, runs⟩ := turnsRefuseNothing dropping 3 3 0 deaf (by decide) clears echoes turns
  obtain ⟨replies, s, sinks', ran⟩ := runs fun c member now asked =>
    instants c member now asked ▸ room
  have offered : (((start (.start dropping 3 0) 3).run deaf echoes).toOption.bind
      fun out => (out.2.1.turn out.2.2 1000000).toOption.map
        fun turned => turned.1.step.drain.offers.length) = some 3 := by decide +kernel
  rw [ran] at offered
  obtain ⟨⟨report, s'', sinks''⟩, last, three⟩ := Option.map_eq_some_iff.mp offered
  have turned : s.turn sinks' 1000000 = .ok (report, s'', sinks'') := by
    cases ended : s.turn sinks' 1000000 with
    | error overflow =>
      rw [ended] at last
      exact nomatch last
    | ok out =>
      rw [ended] at last
      exact congrArg Except.ok (Option.some.inj last)
  obtain ⟨_, _, flush⟩ := flushes replies s sinks' ran
  obtain ⟨told, flushed⟩ := flush 1000000 report s'' sinks'' turned
  have three : report.step.drain.offers.length = 3 := three
  have count := congrArg List.length flushed.offers
  rw [List.length_map, List.length_map, three] at count
  exact ⟨by decide, clears, turns, room, replies, s, sinks', ran, report, s'', sinks'', told, turned,
    flushed, count.symm⟩

example : ((start (.start dropping 2 0) 3).run deaf (echoes ++ [.turn 1000000])).toOption.map
    (fun (_, s, _) => s.node.outbox.stats.rejectedTransfers) = some 1 := by decide +kernel

end Station

end Rangefinder
