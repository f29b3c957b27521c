import Rangefinder.Proofs.Message.Codec
import Rangefinder.Proofs.Node.Run

/-! What a node puts on the bus. Every publication is a telegram: a heartbeat or a measurement, the
transfer made of it and the answer of the outbox. A telegram fits one frame, so that the frames on
the bus are those of admitted telegrams, in the order of admission, and a receiver reads in each
just what the node had to tell. -/
namespace Rangefinder.Node
open Bus (ArbitrationId Frame NodeId Outbox SubjectId TailByte Transfer)
open Echo (Measurement)
open Message (Distance Heartbeat Layout Numbering)

inductive Content
  | heartbeat (uptime : UInt32)
  | distance (measurement : Measurement)
  deriving DecidableEq, Repr

namespace Content

def subject : Content → SubjectId
  | heartbeat _ => Layout.subject Heartbeat
  | distance _ => Layout.subject Distance

def encode (numbering : Numbering) : Content → Transfer × Numbering
  | heartbeat uptime => numbering.ofHeartbeat uptime
  | distance m => numbering.ofDistance m.centimetres

def ReadIn (payload : List UInt8) : Content → Prop
  | heartbeat uptime => Message.read payload = .ok (Heartbeat.mk uptime .nominal .operational 0)
  | distance m => Message.read payload = .ok (Distance.mk m.centimetres)

section
variable (c : Content) (numbering : Numbering)

theorem encodePriority : (c.encode numbering).1.priority = .nominal := by cases c <;> rfl

theorem encodeSubject : (c.encode numbering).1.subject = c.subject := by cases c <;> rfl

theorem encodeShort : (c.encode numbering).1.payload.length ≤ Bus.chunkBytes := by
  cases c <;> simp [encode, Numbering.ofHeartbeat, Numbering.ofDistance, Layout.toBytes,
    Bus.chunkBytes]

theorem encodeRead : c.ReadIn (c.encode numbering).1.payload := by
  cases c with
  | heartbeat uptime =>
    have own := Message.heartbeatRead (.nominal uptime) []
    rw [List.append_nil] at own
    exact own
  | distance m =>
    have own := Message.distanceRead ⟨m.centimetres⟩ []
    rw [List.append_nil] at own
    exact own

end

end Content

structure Telegram where
  content : Content
  publication : Publication
  deriving DecidableEq, Repr

namespace Telegram

def transfer (t : Telegram) : Transfer := t.publication.transfer

def admitted (t : Telegram) : Bool :=
  match t.publication.admission with
  | .queued _ => true
  | .refused _ => false

def reply (t : Telegram) : Outbox.Reply := .added t.transfer t.publication.admission

def frame (t : Telegram) (source : NodeId) : Frame :=
  .fill (.build t.transfer.priority t.transfer.subject source)
    (t.transfer.payload ++ [(TailByte.mk true true true t.transfer.transferId).toByte])

theorem refusedReply (t : Telegram) : t.reply.refused = !t.admitted := by
  unfold reply admitted
  cases t.publication.admission <;> rfl

theorem transfersAdmitted (telegrams : List Telegram) :
    (telegrams.map reply).filterMap Outbox.Reply.transfer? =
      (telegrams.filter admitted).map transfer := by
  induction telegrams with
  | nil => rfl
  | cons t rest ih =>
    cases answer : t.publication.admission <;> simp [reply, admitted, answer, List.filterMap_cons, ih]

end Telegram

inductive Encodes : Numbering → List Telegram → Numbering → Prop
  | nil {numbering} : Encodes numbering [] numbering
  | cons {numbering last telegram rest}
      (transfer : telegram.transfer = (telegram.content.encode numbering).1)
      (later : Encodes (telegram.content.encode numbering).2 rest last) :
      Encodes numbering (telegram :: rest) last

theorem encodesAppend {first middle last : Numbering} {front back : List Telegram}
    (earlier : Encodes first front middle) (later : Encodes middle back last) :
    Encodes first (front ++ back) last := by
  induction earlier with
  | nil => exact later
  | cons transfer _ ih => exact .cons transfer (ih later)

theorem encodesEach {first last : Numbering} {telegrams : List Telegram}
    (encodes : Encodes first telegrams last) {t : Telegram} (member : t ∈ telegrams) :
    ∃ numbering, t.transfer = (t.content.encode numbering).1 := by
  induction encodes with
  | nil => exact absurd member List.not_mem_nil
  | @cons numbering _ _ _ transfer _ ih =>
    rcases List.mem_cons.mp member with same | later
    · exact ⟨numbering, same ▸ transfer⟩
    · exact ih later

structure Carries (source : NodeId) (t : Telegram) (frame : Frame) : Prop where
  message : frame.id.isMessage = true
  named : frame.id.isAnonymous = false
  priority : frame.id.priority = .nominal
  source : frame.id.source = source
  subject : frame.id.subject = t.content.subject
  tail : frame.tail? = some ⟨true, true, true, t.transfer.transferId⟩
  content : t.content.ReadIn frame.transferBytes

section
variable {t : Telegram} {numbering : Numbering}
  (encoded : t.transfer = (t.content.encode numbering).1) (source : NodeId)
include encoded

theorem frameCarries : Carries source t (t.frame source) := by
  have short : t.transfer.payload.length ≤ Bus.chunkBytes := encoded ▸ t.content.encodeShort numbering
  refine ⟨ArbitrationId.messageBuild _ _ _, ArbitrationId.namedBuild _ _ _, ?_,
    ArbitrationId.sourceBuild _ _ _, ?_, Frame.tailFill short, ?_⟩
  · rw [Telegram.frame, Frame.fill, ArbitrationId.priorityBuild, encoded, Content.encodePriority]
  · rw [Telegram.frame, Frame.fill, ArbitrationId.subjectBuild, encoded, Content.encodeSubject]
  · rw [Telegram.frame, Frame.transferBytesFill short, encoded]
    exact t.content.encodeRead numbering

theorem framesTelegram : t.transfer.frames source = [t.frame source] :=
  Bus.framesSingle (encoded ▸ t.content.encodeShort numbering) source

end

theorem framesTelegrams {telegrams : List Telegram} {source : NodeId}
    (encoded : ∀ t ∈ telegrams, ∃ numbering, t.transfer = (t.content.encode numbering).1) :
    telegrams.flatMap (·.transfer.frames source) = telegrams.map (·.frame source) := by
  induction telegrams with
  | nil => rfl
  | cons t rest ih =>
    obtain ⟨⟨_, own⟩, others⟩ := List.forall_mem_cons.mp encoded
    rw [List.flatMap_cons, framesTelegram own, ih others]
    rfl

namespace Reply

def telegrams : Reply → List Telegram
  | observed report =>
    match report.measurement?, report.publication with
    | some m, some publication => [⟨.distance m, publication⟩]
    | _, _ => []
  | stepped _ report => report.beat.toList.map fun beat => ⟨.heartbeat beat.uptime, beat.publication⟩

def outbox (reply : Reply) : List Outbox.Reply :=
  reply.telegrams.map Telegram.reply ++
    match reply with
    | observed _ => []
    | stepped _ report => [.drained report.drain]

end Reply

def telegrams (replies : List Reply) : List Telegram := replies.flatMap Reply.telegrams

def ledger (replies : List Reply) (n : Node) (sinks : Sinks) : Outbox.Ledger :=
  ⟨replies.flatMap Reply.outbox, n.outbox, sinks.bus⟩

structure Tells (n : Node) (sinks : Sinks) (replies : List Reply) (n' : Node)
    (sinks' : Sinks) : Prop where
  encodes : Encodes n.numbering (telegrams replies) n'.numbering
  outbox : ∃ calls, .pop ∉ calls ∧ n.outbox.run sinks.bus calls = ledger replies n' sinks'
  boot : n'.schedule.boot = n.schedule.boot
  uptimes : ∀ now report, .stepped now report ∈ replies → ∀ beat ∈ report.beat,
    beat.uptime = n.schedule.uptime now

section
variable {n n' : Node} {sinks sinks' : Sinks}

theorem observeCases (n : Node) (edge : Edge) :
    let hearing := (n.ranger.hear edge).1
    let heard := { n with ranger := (n.ranger.hear edge).2 }
    hearing.measurement? = none ∧ n.observe edge = (⟨edge, hearing, none⟩, heard) ∨
      ∃ m, hearing.measurement? = some m ∧
        n.observe edge = (⟨edge, hearing, some (heard.publishDistance m).1⟩,
          (heard.publishDistance m).2) := by
  intro hearing heard
  cases measured : hearing.measurement? with
  | none => exact .inl ⟨rfl, by simp only [observe, hearing, heard, measured]⟩
  | some m => exact .inr ⟨m, rfl, by simp only [observe, hearing, heard, measured]⟩

theorem observeTells (n : Node) (sinks : Sinks) (edge : Edge) :
    Tells n sinks [.observed (n.observe edge).1] (n.observe edge).2 sinks := by
  have boot : (n.observe edge).2.schedule.boot = n.schedule.boot := by rw [observeSchedule]
  rcases observeCases n edge with ⟨measured, same⟩ | ⟨m, measured, same⟩
  · have silent : (Reply.observed (n.observe edge).1).telegrams = [] := by
      simp [Reply.telegrams, EdgeReport.measurement?, same, measured]
    refine ⟨?_, ⟨[], by simp, ?_⟩, boot, by simp⟩
    · rw [telegrams, List.flatMap_singleton, silent, same]
      exact .nil
    · rw [ledger, List.flatMap_singleton, Reply.outbox, silent, same]
      rfl
  · generalize heard : { n with ranger := (n.ranger.hear edge).2 } = listener at same
    have told : (Reply.observed (n.observe edge).1).telegrams =
        [⟨.distance m, (listener.publishDistance m).1⟩] := by
      simp [Reply.telegrams, EdgeReport.measurement?, same, measured]
    refine ⟨?_, ⟨[.add (n.numbering.ofDistance m.centimetres).1], by simp, ?_⟩, boot, by simp⟩
    · rw [telegrams, List.flatMap_singleton, told, same, ← heard]
      exact .cons rfl .nil
    · rw [ledger, List.flatMap_singleton, Reply.outbox, told, same, ← heard]
      rfl

theorem stepTells {now : Nat} {report : StepReport}
    (stepped : n.step sinks now = .ok (report, n', sinks')) :
    Tells n sinks [.stepped now report] n' sinks' := by
  have schedule := (stepStepped stepped).schedule
  obtain ⟨due, s, uptime?, s', _, _, same⟩ := stepOk.mp stepped
  refine ⟨?_, ?_, schedule.boot, ?_⟩
  · rw [telegrams, List.flatMap_singleton]
    cases same
    cases uptime? with
    | none => exact .nil
    | some uptime => exact .cons rfl .nil
  · rw [ledger, List.flatMap_singleton]
    cases same
    cases uptime? with
    | none => exact ⟨[.drain], by simp, rfl⟩
    | some uptime => exact ⟨[.add (n.numbering.ofHeartbeat uptime).1, .drain], by simp, rfl⟩
  · intro instant stepReport member beat beaten
    cases List.mem_singleton.mp member
    have uptime := schedule.uptime
    rw [Option.mem_def.mp beaten, Option.map_some] at uptime
    split at uptime
    · exact Option.some.inj uptime
    · exact nomatch uptime

theorem tellsTrans {first later : List Reply} {m : Node} {line : Sinks}
    (front : Tells n sinks first m line) (back : Tells m line later n' sinks') :
    Tells n sinks (first ++ later) n' sinks' := by
  refine ⟨?_, ?_, back.boot.trans front.boot, ?_⟩
  · rw [telegrams, List.flatMap_append]
    exact encodesAppend front.encodes back.encodes
  · obtain ⟨before, popless, ran⟩ := front.outbox
    obtain ⟨after, popless', ran'⟩ := back.outbox
    refine ⟨before ++ after, by simp [popless, popless'], ?_⟩
    rw [ledger] at ran
    rw [Outbox.runAppend, ran, ran', ledger, ledger, List.flatMap_append]
  · intro now report member beat beaten
    rcases List.mem_append.mp member with earlier | since
    · exact front.uptimes now report earlier beat beaten
    · rw [back.uptimes now report since beat beaten, Schedule.uptime, Schedule.uptime, front.boot]

theorem runTells {calls : List Call} {replies : List Reply}
    (ran : n.run sinks calls = .ok (replies, n', sinks')) : Tells n sinks replies n' sinks' := by
  induction calls generalizing n sinks replies with
  | nil =>
    cases ran
    exact ⟨.nil, ⟨[], by simp, rfl⟩, rfl, by simp⟩
  | cons c rest ih =>
    obtain ⟨reply, m, line, later, _, _, called, again, same⟩ := runCons.mp ran
    cases same
    have first : Tells n sinks [reply] m line := by
      cases c with
      | observe edge =>
        cases called
        exact observeTells n sinks edge
      | step now =>
        obtain ⟨report, stepped, same⟩ := callStep.mp called
        exact same ▸ stepTells stepped
    exact tellsTrans first (ih again)

theorem tellsExchange {replies : List Reply} (tells : Tells n sinks replies n' sinks') :
    n.outbox.Exchange sinks.bus (ledger replies n' sinks') := by
  obtain ⟨ops, _, same⟩ := tells.outbox
  exact same ▸ Outbox.exchangeRun n.outbox sinks.bus ops

end

def admitted (replies : List Reply) : List Telegram := (telegrams replies).filter Telegram.admitted

theorem transfersLedger (replies : List Reply) (n : Node) (sinks : Sinks) :
    (ledger replies n sinks).transfers = (admitted replies).map Telegram.transfer := by
  rw [Outbox.Ledger.transfers, ledger, admitted, telegrams, List.filterMap_flatMap,
    List.filter_flatMap, List.map_flatMap]
  congr 1
  funext reply
  have own := Telegram.transfersAdmitted reply.telegrams
  cases reply with
  | observed => simpa only [Reply.outbox, List.append_nil] using own
  | stepped => simpa [Reply.outbox, List.filterMap_cons] using own

theorem refusedLedger (replies : List Reply) (n : Node) (sinks : Sinks) :
    (ledger replies n sinks).replies.countP Outbox.Reply.refused =
      (telegrams replies).countP fun t => !t.admitted := by
  rw [ledger, telegrams, List.countP_flatMap, List.countP_flatMap]
  congr 2
  funext reply
  have own : (reply.telegrams.map Telegram.reply).countP Outbox.Reply.refused =
      reply.telegrams.countP fun t => !t.admitted := by
    rw [List.countP_map]
    exact List.countP_congr fun t _ => by rw [Function.comp_apply, Telegram.refusedReply]
  cases reply with
  | observed => simpa only [Function.comp_apply, Reply.outbox, List.append_nil] using own
  | stepped => simpa [Reply.outbox, Outbox.Reply.refused] using own

theorem tellsRejected {n n' : Node} {sinks sinks' : Sinks} {replies : List Reply}
    (tells : Tells n sinks replies n' sinks') :
    n'.outbox.stats.rejectedTransfers = n.outbox.stats.rejectedTransfers +
      .ofNat ((telegrams replies).countP fun t => !t.admitted) := by
  obtain ⟨ops, _, same⟩ := tells.outbox
  have counted := Outbox.runRejected n.outbox sinks.bus ops
  rwa [same, refusedLedger] at counted

section
variable {config : Config} {capacity boot : Nat} {sinks sinks' : Sinks} {calls : List Call}
  {replies : List Reply} {n : Node}
  (ran : (start config capacity boot).run sinks calls = .ok (replies, n, sinks'))
include ran

theorem admittedEncoded {t : Telegram} (member : t ∈ admitted replies) :
    ∃ numbering, t.transfer = (t.content.encode numbering).1 :=
  encodesEach (runTells ran).encodes (List.mem_filter.mp member).1

theorem admittedFrames :
    (ledger replies n sinks').departed ++ n.outbox.frames =
      (admitted replies).map (·.frame config.node) := by
  have order := (tellsExchange (runTells ran)).frames
  rw [transfersLedger, List.flatMap_map, framesTelegrams (fun _ => admittedEncoded ran)] at order
  exact order.symm

theorem departedSent (retry : config.policy = .retry) :
    (ledger replies n sinks').departed = (ledger replies n sinks').sent := by
  obtain ⟨ops, popless, same⟩ := (runTells ran).outbox
  rw [← same]
  exact Outbox.runRetry (start config capacity boot).outbox sinks.bus ops retry popless

theorem sentTelegrams : ∃ told, told.Sublist (admitted replies) ∧
    (config.policy = .retry → told <+: admitted replies) ∧
    (ledger replies n sinks').sent = told.map (·.frame config.node) := by
  have order := admittedFrames ran
  by_cases retry : config.policy = .retry
  · have front : (ledger replies n sinks').sent <+:
        (admitted replies).map (·.frame config.node) :=
      ⟨n.outbox.frames, departedSent ran retry ▸ order⟩
    obtain ⟨told, first, frames⟩ := List.prefix_map_iff.mp front
    exact ⟨told, first.sublist, fun _ => first, frames⟩
  · have inside : (ledger replies n sinks').sent.Sublist
        ((admitted replies).map (·.frame config.node)) :=
      order ▸ (Outbox.ledgerSent _).trans (List.sublist_append_left _ _)
    obtain ⟨told, within, frames⟩ := List.sublist_map_iff.mp inside
    exact ⟨told, within, fun kept => absurd kept retry, frames⟩

end

theorem framesCarryTelegrams (config : Config) (capacity boot : Nat) (sinks : Sinks)
    (calls : List Call) :
    (∀ replies n sinks',
      (start config capacity boot).run sinks calls = .ok (replies, n, sinks') →
      (∃ told : List (Telegram × Frame),
        told.map Prod.snd = (ledger replies n sinks').sent ∧
        (told.map Prod.fst).Sublist (admitted replies) ∧
        (config.policy = .retry → told.map Prod.fst <+: admitted replies) ∧
        ∀ telegram frame, (telegram, frame) ∈ told → Carries config.node telegram frame) ∧
      (ledger replies n sinks').trials.map Prod.snd =
        sinks.bus.answers (ledger replies n sinks').trials.length ∧
      ∀ now report, .stepped now report ∈ replies → ∀ beat ∈ report.beat,
        beat.uptime = UInt32.ofNat (min ((now - boot) / 1000000) 4294967295)) ∧
    ((∀ now, .step now ∈ calls → config.Room now) → ∃ replies n sinks',
      (start config capacity boot).run sinks calls = .ok (replies, n, sinks')) := by
  refine ⟨?_, ?_⟩
  · intro replies n sinks' ran
    have tells := runTells ran
    refine ⟨?_, ?_, tells.uptimes⟩
    · obtain ⟨told, within, retry, frames⟩ := sentTelegrams ran
      have names : (told.map fun t => (t, t.frame config.node)).map Prod.fst = told := by
        rw [List.map_map]
        exact List.map_id told
      refine ⟨told.map fun t => (t, t.frame config.node), ?_, ?_, ?_, ?_⟩
      · rw [frames, List.map_map]
        rfl
      · rwa [names]
      · rwa [names]
      · intro telegram frame member
        obtain ⟨t, told, same⟩ := List.mem_map.mp member
        cases same
        obtain ⟨_, encoded⟩ := admittedEncoded ran (within.subset told)
        exact frameCarries encoded config.node
    · obtain ⟨ops, _, same⟩ := tells.outbox
      exact same ▸ (Outbox.exchangeRun (start config capacity boot).outbox sinks.bus ops).answers
  · intro room
    obtain ⟨replies, n, sinks', ran, _⟩ := runRoom (startStands config capacity boot) sinks room
    exact ⟨replies, n, sinks', ran⟩

theorem telegramsAfterRefusal :
    Config.standard.Room 5000 ∧
    ∃ replies n sinks', (start .standard defaultCapacity 0).run
        ⟨Sink.willing.script [false] true, .willing⟩
        [.step 0, .observe ⟨24, .rising, .ofMicros 100⟩, .observe ⟨24, .falling, .ofMicros 700⟩,
          .step 5000] = .ok (replies, n, sinks') ∧
      ∃ told : List (Telegram × Frame), told.length = 2 ∧
        told.map Prod.snd = (ledger replies n sinks').sent ∧
        ∀ telegram frame, (telegram, frame) ∈ told → Carries Config.standard.node telegram frame := by
  have room : Config.standard.Room 5000 := ⟨by decide, by decide, by decide⟩
  obtain ⟨carried, fits⟩ := framesCarryTelegrams .standard defaultCapacity 0
    ⟨Sink.willing.script [false] true, .willing⟩
    [.step 0, .observe ⟨24, .rising, .ofMicros 100⟩, .observe ⟨24, .falling, .ofMicros 700⟩,
      .step 5000]
  obtain ⟨replies, n, sinks', ran⟩ := fits (roomsBefore room (by decide))
  obtain ⟨⟨told, frames, _, _, carries⟩, _, _⟩ := carried replies n sinks' ran
  have count : ((start .standard defaultCapacity 0).run
      ⟨Sink.willing.script [false] true, .willing⟩
      [.step 0, .observe ⟨24, .rising, .ofMicros 100⟩, .observe ⟨24, .falling, .ofMicros 700⟩,
        .step 5000]).toOption.map (fun out => (ledger out.1 out.2.1 out.2.2).sent.length) =
      some 2 := by decide +kernel
  rw [ran] at count
  have two : (ledger replies n sinks').sent.length = 2 := Option.some.inj count
  rw [← frames, List.length_map] at two
  exact ⟨room, replies, n, sinks', ran, told, two, frames, carries⟩

end Rangefinder.Node
