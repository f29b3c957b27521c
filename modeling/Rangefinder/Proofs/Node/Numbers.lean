import Rangefinder.Proofs.Node.Wire

/-! How the telegrams of one subject are numbered, and in which order their numbers reach the bus. Each
takes the next number whatever becomes of it, so that numbers are missing on the bus where telegrams were
refused or dropped. Where frames are kept for a retry only refusals leave a gap, and a number comes back
right after itself when they fill a whole round of the numbers. -/
namespace Rangefinder.Node
open Bus (Frame Outbox SubjectId TailByte TransferId)
open Message (Distance Heartbeat Layout Numbering)

namespace Content
variable (c : Content) (numbering : Numbering)

theorem encodeNumber :
    numbering.next? c.subject = some (c.encode numbering).1.transferId := by
  cases c <;> rfl

theorem encodeNext :
    (c.encode numbering).2.next? c.subject = some (c.encode numbering).1.transferId.next := by
  cases c <;> rfl

theorem encodeOther {subject : SubjectId} (other : c.subject ≠ subject) :
    (c.encode numbering).2.next? subject = numbering.next? subject := by
  cases c with
  | heartbeat =>
    have apart : subject ≠ Layout.subject Heartbeat := Ne.symm other
    simp [encode, Numbering.ofHeartbeat, Numbering.next?, apart]
  | distance =>
    have apart : subject ≠ Layout.subject Distance := Ne.symm other
    simp [encode, Numbering.ofDistance, Numbering.next?, apart]

end Content

def telegramsOn (subject : SubjectId) (telegrams : List Telegram) : List Telegram :=
  telegrams.filter fun t => t.content.subject = subject

def framesOn (subject : SubjectId) (frames : List Frame) : List Frame :=
  frames.filter fun frame => frame.id.subject = subject

theorem encodesNumbered {subject : SubjectId} {first last : Numbering} {telegrams : List Telegram}
    (encodes : Encodes first telegrams last) {before : Nat}
    (next : first.next? subject = some (.truncate before)) :
    last.next? subject = some (.truncate (before + (telegramsOn subject telegrams).length)) ∧
      ∀ (k : Nat) (t : Telegram), (telegramsOn subject telegrams)[k]? = some t →
        t.transfer.subject = subject ∧ t.transfer.transferId = .truncate (before + k) := by
  induction encodes generalizing before with
  | nil => exact ⟨next, by simp [telegramsOn]⟩
  | @cons numbering last t rest transfer later ih =>
    by_cases own : t.content.subject = subject
    · have number := t.content.encodeNumber numbering
      have advanced := t.content.encodeNext numbering
      rw [own, next, Option.some_inj] at number
      rw [own, ← number, TransferId.nextTruncate] at advanced
      obtain ⟨counted, numbered⟩ := ih advanced
      have front : telegramsOn subject (t :: rest) = t :: telegramsOn subject rest :=
        List.filter_cons_of_pos (decide_eq_true own)
      rw [front]
      refine ⟨?_, ?_⟩
      · rw [counted, List.length_cons, Nat.add_assoc, Nat.add_comm 1]
      · intro k u found
        cases k with
        | zero =>
          cases Option.some.inj found
          rw [transfer, Content.encodeSubject]
          exact ⟨own, number.symm⟩
        | succ k =>
          rw [Nat.add_comm k, ← Nat.add_assoc]
          exact numbered k u found
    · have skipped : telegramsOn subject (t :: rest) = telegramsOn subject rest :=
        List.filter_cons_of_neg (mt of_decide_eq_true own)
      rw [skipped]
      exact ih ((t.content.encodeOther numbering own).trans next)

theorem framesOnTelegrams {subject : SubjectId} {source : Bus.NodeId} {told : List Telegram}
    (encoded : ∀ t ∈ told, ∃ numbering, t.transfer = (t.content.encode numbering).1) :
    framesOn subject (told.map (·.frame source)) =
      (telegramsOn subject told).map (·.frame source) := by
  rw [framesOn, List.filter_map, telegramsOn]
  refine congrArg _ (List.filter_congr ?_)
  intro t member
  obtain ⟨_, own⟩ := encoded t member
  rw [Function.comp_apply, (frameCarries own source).subject]

section
variable {config : Config} {capacity boot : Nat} {sinks sinks' : Sinks} {calls : List Call}
  {replies : List Reply} {n : Node}
  (ran : (start config capacity boot).run sinks calls = .ok (replies, n, sinks'))
include ran

theorem sentOnSubject (subject : SubjectId) : ∃ told,
    told.Sublist ((telegramsOn subject (telegrams replies)).filter Telegram.admitted) ∧
    (config.policy = .retry →
      told <+: (telegramsOn subject (telegrams replies)).filter Telegram.admitted) ∧
    framesOn subject (ledger replies n sinks').sent = told.map (·.frame config.node) := by
  obtain ⟨told, within, first, sent⟩ := sentTelegrams ran
  have taken : telegramsOn subject (admitted replies) =
      (telegramsOn subject (telegrams replies)).filter Telegram.admitted := by
    simp only [telegramsOn, admitted, List.filter_filter, Bool.and_comm]
  rw [← taken, sent, framesOnTelegrams fun t member => admittedEncoded ran (within.subset member)]
  exact ⟨telegramsOn subject told, within.filter _, fun retry => (first retry).filter _, rfl⟩

theorem admittedOnSubject {subject : SubjectId} {t : Telegram}
    (member : t ∈ (telegramsOn subject (telegrams replies)).filter Telegram.admitted) :
    t.admitted = true ∧ t.transfer.frames config.node = [t.frame config.node] ∧
      Carries config.node t (t.frame config.node) := by
  obtain ⟨own, taken⟩ := List.mem_filter.mp member
  have published : t ∈ admitted replies :=
    List.mem_filter.mpr ⟨(List.mem_filter.mp own).1, taken⟩
  obtain ⟨_, encoded⟩ := admittedEncoded ran published
  exact ⟨taken, framesTelegram encoded config.node, frameCarries encoded config.node⟩

theorem numberedOnSubject {subject : SubjectId}
    (published : subject ∈ [Layout.subject Heartbeat, Layout.subject Distance]) :
    n.numbering.next? subject =
        some (.truncate (telegramsOn subject (telegrams replies)).length) ∧
      ∀ (k : Nat) (t : Telegram), (telegramsOn subject (telegrams replies))[k]? = some t →
        t.transfer.subject = subject ∧ t.transfer.transferId = .truncate k := by
  have first : (start config capacity boot).numbering.next? subject = some (.truncate 0) := by
    simp only [List.mem_cons, List.not_mem_nil, or_false] at published
    obtain same | same := published <;> rw [same] <;> rfl
  have numbered := encodesNumbered (runTells ran).encodes first
  simpa only [Nat.zero_add] using numbered

end

theorem numbersApart {j k : Nat} (later : j < k) (near : k < j + 32) :
    (Bus.Field.truncate j : TransferId) ≠ .truncate k := by
  intro same
  have rests := congrArg Bus.Field.val same
  simp only [Bus.Field.valTruncate] at rests
  omega

theorem numbersFollowOrder (config : Config) (capacity boot : Nat) (sinks : Sinks)
    (calls : List Call) :
    (∀ replies n sinks', (start config capacity boot).run sinks calls = .ok (replies, n, sinks') →
      ∀ subject ∈ [Layout.subject Heartbeat, Layout.subject Distance],
        let own := telegramsOn subject (telegrams replies)
        let sent := framesOn subject (ledger replies n sinks').sent
        (∀ (k : Nat) (t : Telegram), own[k]? = some t →
          t.transfer.subject = subject ∧ t.transfer.transferId.val = k % 32) ∧
        (n.numbering.next? subject).map Bus.Field.val = some (own.length % 32) ∧
        (∀ (j k : Nat) (t u : Telegram), j < k → k < j + 32 → own[j]? = some t →
          own[k]? = some u → t.transfer.transferId ≠ u.transfer.transferId) ∧
        ∃ places : List Nat, places.Pairwise (· < ·) ∧ places.length = sent.length ∧
          ∀ (i k : Nat) (frame : Frame), places[i]? = some k → sent[i]? = some frame →
            ∃ t, own[k]? = some t ∧ t.admitted = true ∧
              t.transfer.frames config.node = [frame]) ∧
    ((∀ now, .step now ∈ calls → config.Room now) → ∃ replies n sinks',
      (start config capacity boot).run sinks calls = .ok (replies, n, sinks')) := by
  refine ⟨?_, ?_⟩
  · intro replies n sinks' ran subject published own sent
    obtain ⟨next, numbered⟩ := numberedOnSubject ran published
    refine ⟨?_, ?_, ?_, ?_⟩
    · intro k t found
      obtain ⟨same, number⟩ := numbered k t found
      exact ⟨same, congrArg Bus.Field.val number⟩
    · rw [next]
      rfl
    · intro j k t u later near first second
      rw [(numbered j t first).2, (numbered k u second).2]
      exact numbersApart later near
    · obtain ⟨told, within, _, frames⟩ := sentOnSubject ran subject
      obtain ⟨places, members, order⟩ :=
        List.sublist_eq_map_getElem (within.trans List.filter_sublist)
      have carried : sent = places.map fun place => own[place].frame config.node :=
        frames.trans (by rw [members, List.map_map]; rfl)
      refine ⟨places.map Fin.val, List.pairwise_map.mpr order, by simp [carried], ?_⟩
      intro i k frame placed found
      rw [List.getElem?_map] at placed
      obtain ⟨place, here, same⟩ := Option.map_eq_some_iff.mp placed
      cases same
      rw [carried, List.getElem?_map, here, Option.map_some] at found
      cases found
      have member : own[place] ∈ told := by
        rw [members]
        exact List.mem_map_of_mem (List.mem_of_getElem? here)
      obtain ⟨taken, alone, _⟩ := admittedOnSubject ran (within.subset member)
      exact ⟨own[place], List.getElem?_eq_getElem place.isLt, taken, alone⟩
  · intro room
    obtain ⟨replies, n, sinks', ran, _⟩ := runRoom (startStands config capacity boot) sinks room
    exact ⟨replies, n, sinks', ran⟩

def everySecond (count : Nat) : List Call :=
  (List.range count).map fun second => .step (second * 1000000)

theorem everySecondRoom (count : Nat) {config : Config} (room : config.Room (count * 1000000)) :
    ∀ now, .step now ∈ everySecond count → config.Room now := by
  intro now member
  obtain ⟨second, within, same⟩ := List.mem_map.mp member
  cases same
  have before := List.mem_range.mp within
  exact Config.roomEarlier (Nat.mul_le_mul_right _ (Nat.le_of_lt before)) room

def outage : Sinks := ⟨Sink.willing.script (List.replicate 46 false) true, .willing⟩

theorem outageSent : ∃ replies n sinks',
    (start .standard defaultCapacity 0).run outage (everySecond 48) = .ok (replies, n, sinks') ∧
    ∃ first second,
      (framesOn (Layout.subject Heartbeat) (ledger replies n sinks').sent)[15]? = some first ∧
      (framesOn (Layout.subject Heartbeat) (ledger replies n sinks').sent)[16]? = some second ∧
      first.bytes = [15, 0, 0, 0, 0, 0, 0, 0xef] ∧ second.bytes = [47, 0, 0, 0, 0, 0, 0, 0xef] := by
  obtain ⟨replies, n, sinks', ran, _⟩ := runRoom (startStands .standard defaultCapacity 0) outage
    (everySecondRoom 48 ⟨by decide, by decide, by decide⟩)
  have bytes : ((start .standard defaultCapacity 0).run outage (everySecond 48)).toOption.map
      (fun out =>
        let sent := framesOn (Layout.subject Heartbeat) (ledger out.1 out.2.1 out.2.2).sent
        (sent[15]?.map Frame.bytes, sent[16]?.map Frame.bytes)) =
      some (some [15, 0, 0, 0, 0, 0, 0, 0xef], some [47, 0, 0, 0, 0, 0, 0, 0xef]) := by
    decide +kernel
  rw [ran] at bytes
  obtain ⟨front, back⟩ := Prod.mk.inj (Option.some.inj bytes)
  obtain ⟨first, here, own⟩ := Option.map_eq_some_iff.mp front
  obtain ⟨second, next, own'⟩ := Option.map_eq_some_iff.mp back
  exact ⟨replies, n, sinks', ran, first, second, here, next, own, own'⟩

theorem numbersThroughOutage :
    Config.standard.Room 48000000 ∧ ∃ replies n sinks',
      (start .standard defaultCapacity 0).run outage (everySecond 48) = .ok (replies, n, sinks') ∧
      (telegramsOn (Layout.subject Heartbeat) (telegrams replies)).length = 48 ∧
      (n.numbering.next? (Layout.subject Heartbeat)).map Bus.Field.val = some 16 ∧
      ∃ k t frame, (telegramsOn (Layout.subject Heartbeat) (telegrams replies))[k]? = some t ∧
        (framesOn (Layout.subject Heartbeat) (ledger replies n sinks').sent)[16]? = some frame ∧
        t.transfer.transferId.val = k % 32 ∧ t.transfer.frames Config.standard.node = [frame] := by
  have room : Config.standard.Room 48000000 := ⟨by decide, by decide, by decide⟩
  obtain ⟨follows, _⟩ := numbersFollowOrder .standard defaultCapacity 0 outage (everySecond 48)
  obtain ⟨replies, n, sinks', ran, _, second, _, here, _⟩ := outageSent
  have total : ((start .standard defaultCapacity 0).run outage (everySecond 48)).toOption.map
      (fun out => (telegramsOn (Layout.subject Heartbeat) (telegrams out.1)).length) = some 48 := by
    decide +kernel
  rw [ran] at total
  have total : (telegramsOn (Layout.subject Heartbeat) (telegrams replies)).length = 48 :=
    Option.some.inj total
  obtain ⟨numbered, next, _, places, _, count, carried⟩ :=
    follows replies n sinks' ran _ List.mem_cons_self
  rw [total] at next
  have within : 16 < places.length := count ▸ (List.getElem?_eq_some_iff.mp here).1
  obtain ⟨t, found, _, frames⟩ :=
    carried 16 places[16] second (List.getElem?_eq_getElem within) here
  exact ⟨room, replies, n, sinks', ran, total, next, places[16], t, second, found, here,
    (numbered _ t found).2, frames⟩

theorem nextAdmitted {own told : List Telegram} (first : told <+: own.filter Telegram.admitted)
    {i : Nat} {t u : Telegram} (here : told[i]? = some t) (next : told[i + 1]? = some u) :
    ∃ before refused after, own = before ++ t :: (refused ++ u :: after) ∧
      (before.filter Telegram.admitted).length = i ∧ ∀ r ∈ refused, r.admitted = false := by
  obtain ⟨rest, kept⟩ := first
  obtain ⟨within, same⟩ := List.getElem?_eq_some_iff.mp here
  obtain ⟨within', same'⟩ := List.getElem?_eq_some_iff.mp next
  have split : told = told.take i ++ t :: u :: told.drop (i + 2) := by
    rw [← same, ← same', ← List.drop_eq_getElem_cons within', ← List.drop_eq_getElem_cons within,
      List.take_append_drop]
  rw [split, List.append_assoc, eq_comm] at kept
  obtain ⟨front, back, joined, earlier, later⟩ := List.filter_eq_append_iff.mp kept
  obtain ⟨skipped, more, opened, passed, _, later⟩ := List.filter_eq_cons_iff.mp later
  obtain ⟨refused, after, closed, missed, _, _⟩ := List.filter_eq_cons_iff.mp later
  refine ⟨front ++ skipped, refused, after, ?_, ?_, fun r member => ?_⟩
  · rw [joined, opened, closed, List.append_assoc]
  · have none : skipped.filter Telegram.admitted = [] := List.filter_eq_nil_iff.mpr passed
    rw [List.filter_append, none, List.append_nil, earlier, List.length_take_of_le]
    exact Nat.le_of_lt within
  · exact Bool.eq_false_iff.mpr (missed r member)

theorem numbersReturn {k gap : Nat} :
    (Bus.Field.truncate k : TransferId) = .truncate (k + 1 + gap) ↔ gap % 32 = 31 := by
  rw [Bus.Field.ext_iff, Bus.Field.valTruncate, Bus.Field.valTruncate]
  omega

theorem repeatsAfterRefusals (config : Config) (capacity boot : Nat) (sinks : Sinks)
    (calls : List Call) (retry : config.policy = .retry) :
    (∀ replies n sinks', (start config capacity boot).run sinks calls = .ok (replies, n, sinks') →
      ∀ subject ∈ [Layout.subject Heartbeat, Layout.subject Distance],
        let own := telegramsOn subject (telegrams replies)
        let sent := framesOn subject (ledger replies n sinks').sent
        ∀ (i : Nat) (first second : Frame), sent[i]? = some first → sent[i + 1]? = some second →
          ∃ before t refused u after, own = before ++ t :: (refused ++ u :: after) ∧
            (before.filter Telegram.admitted).length = i ∧
            (t.admitted = true ∧ t.transfer.frames config.node = [first]) ∧
            (∀ r ∈ refused, r.admitted = false) ∧
            (u.admitted = true ∧ u.transfer.frames config.node = [second]) ∧
            (first.tail?.map TailByte.transferId = second.tail?.map TailByte.transferId ↔
              refused.length % 32 = 31)) ∧
    ((∀ now, .step now ∈ calls → config.Room now) → ∃ replies n sinks',
      (start config capacity boot).run sinks calls = .ok (replies, n, sinks')) := by
  refine ⟨?_, ?_⟩
  · intro replies n sinks' ran subject published own sent i first second here next
    obtain ⟨_, numbered⟩ := numberedOnSubject ran published
    obtain ⟨told, within, prior, frames⟩ := sentOnSubject ran subject
    have frames : sent = told.map (·.frame config.node) := frames
    rw [frames, List.getElem?_map] at here next
    obtain ⟨t, at', same⟩ := Option.map_eq_some_iff.mp here
    obtain ⟨u, after', same'⟩ := Option.map_eq_some_iff.mp next
    cases same
    cases same'
    obtain ⟨before, refused, after, split, count, missed⟩ := nextAdmitted (prior retry) at' after'
    obtain ⟨taken, alone, carries⟩ :=
      admittedOnSubject ran (within.subset (List.mem_of_getElem? at'))
    obtain ⟨taken', alone', carries'⟩ :=
      admittedOnSubject ran (within.subset (List.mem_of_getElem? after'))
    have number := (numbered before.length t (by rw [split]; simp)).2
    have number' := (numbered (before.length + 1 + refused.length) u (by
      rw [split]
      simp [Nat.add_assoc, Nat.add_comm 1])).2
    refine ⟨before, t, refused, u, after, split, count, ⟨taken, alone⟩, missed,
      ⟨taken', alone'⟩, ?_⟩
    rw [carries.tail, carries'.tail, Option.map_some, Option.map_some, Option.some_inj, number,
      number']
    exact numbersReturn
  · intro room
    obtain ⟨replies, n, sinks', ran, _⟩ := runRoom (startStands config capacity boot) sinks room
    exact ⟨replies, n, sinks', ran⟩

theorem numberRepeated :
    Config.standard.policy = .retry ∧ ∃ replies n sinks',
      (start .standard defaultCapacity 0).run outage (everySecond 48) = .ok (replies, n, sinks') ∧
      ∃ first second,
        (framesOn (Layout.subject Heartbeat) (ledger replies n sinks').sent)[15]? = some first ∧
        (framesOn (Layout.subject Heartbeat) (ledger replies n sinks').sent)[16]? = some second ∧
        first.transferBytes ≠ second.transferBytes ∧
        first.tail? = some ⟨true, true, true, .truncate 15⟩ ∧
        second.tail? = some ⟨true, true, true, .truncate 15⟩ := by
  obtain ⟨replies, n, sinks', ran, first, second, here, next, own, own'⟩ := outageSent
  refine ⟨rfl, replies, n, sinks', ran, first, second, here, next, ?_, ?_, ?_⟩
  · rw [Frame.transferBytes, Frame.transferBytes, own, own']
    decide
  · rw [Frame.tail?, own]
    decide
  · rw [Frame.tail?, own']
    decide

theorem repeatAfterOutage :
    Config.standard.policy = .retry ∧ Config.standard.Room 48000000 ∧ ∃ replies n sinks',
      (start .standard defaultCapacity 0).run outage (everySecond 48) = .ok (replies, n, sinks') ∧
      ∃ before t refused u after, telegramsOn (Layout.subject Heartbeat) (telegrams replies) =
          before ++ t :: (refused ++ u :: after) ∧
        (before.filter Telegram.admitted).length = 15 ∧ (∀ r ∈ refused, r.admitted = false) ∧
        refused.length % 32 = 31 := by
  have room : Config.standard.Room 48000000 := ⟨by decide, by decide, by decide⟩
  obtain ⟨gaps, _⟩ := repeatsAfterRefusals .standard defaultCapacity 0 outage (everySecond 48) rfl
  obtain ⟨replies, n, sinks', ran, first, second, here, next, own, own'⟩ := outageSent
  obtain ⟨before, t, refused, u, after, split, count, _, missed, _, same⟩ :=
    gaps replies n sinks' ran _ List.mem_cons_self 15 first second here next
  refine ⟨rfl, room, replies, n, sinks', ran, before, t, refused, u, after, split, count, missed,
    same.mp ?_⟩
  rw [Frame.tail?, Frame.tail?, own, own']
  decide

end Rangefinder.Node
