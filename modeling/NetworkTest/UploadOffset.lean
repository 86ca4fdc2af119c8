import NetworkTest.FileClient

/-!
The upload client of thu/hw2 with a server that names any offset. The client
takes it as it comes, subtracts it from the size and seeks to it; what it counts
in the end is what it has read, whether `send` has taken it or not.
-/

namespace NetworkTest.FileClient

open CBuffer (Bytes Memory)
open IntBytes (Word ByteOrder INT_MAX)
open Machine (Step exec Along)

/-- What each `send` has taken, in order. -/
def sends (calls : List Call) : List Bytes :=
  calls.filterMap fun call =>
    match call with
    | .send data => some data
    | _ => none

/-- The bytes of the file that `send` has taken; the first `send` behind the
offset is that of the size. -/
def accepted (calls : List Call) : Bytes := (sends calls).tail.flatten

def Completes (calls : List Call) : Prop := ∃ filesize, Call.complete filesize ∈ calls

def TakesAll (client : Client) : Event → Prop
  | .sendBlock result => result = some client.block.length
  | _ => True

instance (client : Client) : (event : Event) → Decidable (TakesAll client event)
  | .sendBlock result => inferInstanceAs (Decidable (result = some client.block.length))
  | .openRead _ => isTrue trivial
  | .sendName _ => isTrue trivial
  | .recvOffset _ => isTrue trivial
  | .sendSize _ => isTrue trivial
  | .fread => isTrue trivial

@[simp] theorem sends_append (calls made : List Call) :
    sends (calls ++ made) = sends calls ++ sends made := List.filterMap_append

/-- What is left of the file in the loop: the block in hand, and what has not been
read yet. -/
def Client.remaining (client : Client) : Bytes := client.block ++ client.file.drop client.position

/-- In the loop, before an `fread` or with a block in hand. -/
inductive InLoop (client : Client) : Prop where
  | reading (here : client.pc = .reading)
  | sending (block : Bytes) (here : client.pc = .sending block) (more : block ≠ [])

theorem finished_stays {order : ByteOrder} {client last : Client} {events : List Event}
    {calls : List Call} (here : client.pc = .finished)
    (ran : exec (step order) client events = some (last, calls)) : events = [] ∧ calls = [] := by
  cases events with
  | nil => exact ⟨rfl, (Prod.mk.inj (Option.some.inj ran)).2.symm⟩
  | cons event rest => simp [exec, step, here] at ran

/-- The loop to its end: how much of the file `send` has taken, and whether the
verdict is that all of it has. -/
structure Looped (client : Client) (events : List Event) (along : Prop) (calls : List Call) :
    Prop where
  most : (sends calls).flatten.length ≤ client.remaining.length
  all : (sends calls).flatten = client.remaining ↔ along
  verdict : Completes calls ↔ Event.sendBlock none ∉ events ∧
    client.numtotal + BitVec.ofNat 32 client.remaining.length = client.totalbytes
  unfailing : along → Event.sendBlock none ∉ events
  announced : Event.sendSize none ∉ events

theorem next_append (client : Client) :
    client.next ++ client.file.drop (client.position + client.next.length) =
      client.file.drop client.position := by
  rw [← List.drop_drop, Client.next, List.length_take]
  rcases Nat.le_total BUFSIZE (client.file.drop client.position).length with full | short
  · rw [Nat.min_eq_left full, List.take_append_drop]
  · rw [Nat.min_eq_right short, List.take_of_length_le short, List.drop_length, List.append_nil]

theorem next_eq_nil {client : Client} (none : client.next = []) :
    client.file.drop client.position = [] := by
  rw [Client.next, List.take_eq_nil_iff] at none
  exact none.resolve_left (by decide)

theorem looped_failed {client : Client} {block : Bytes} (here : client.pc = .sending block)
    (more : block ≠ []) : Looped client [.sendBlock none] False [.failure, .close] := by
  have some : client.remaining ≠ [] := by simp [Client.remaining, Client.block, here, more]
  constructor
  case most => simp [sends]
  case all => simpa [sends] using some.symm
  case verdict => simp [Completes]
  case unfailing => exact False.elim
  case announced => simp

theorem looped_ended {client : Client} (here : client.pc = .reading) (none : client.next = []) :
    Looped client [.fread] True
      [if client.numtotal = client.totalbytes then
        .complete (BitVec.ofNat 32 client.file.length) else .failure, .close] := by
  have nothing : client.remaining = [] := by
    simp [Client.remaining, Client.block, here, next_eq_nil none]
  have silent : sends [if client.numtotal = client.totalbytes then
      .complete (BitVec.ofNat 32 client.file.length) else .failure, .close] = [] := by
    split <;> rfl
  constructor
  case most => simp [silent]
  case all => simp [silent, nothing]
  case verdict =>
      rw [nothing, List.length_nil]
      by_cases same : client.numtotal = client.totalbytes <;> simp [Completes, same]
  case unfailing => simp
  case announced => simp

theorem looped_loaded {client : Client} {events : List Event} {along : Prop} {calls : List Call}
    (here : client.pc = .reading)
    (rest : Looped { client with
        position := client.position + client.next.length
        pc := .sending client.next } events along calls) :
    Looped client (.fread :: events) along calls := by
  have same : client.remaining = client.next ++
      client.file.drop (client.position + client.next.length) := by
    rw [next_append, Client.remaining, Client.block, here, List.nil_append]
  constructor
  case most => exact same ▸ rest.most
  case all =>
      rw [same]
      exact rest.all
  case verdict =>
      rw [same]
      refine rest.verdict.trans (and_congr_left' (not_congr ?_))
      simp
  case unfailing => simpa using rest.unfailing
  case announced => simpa using rest.announced

theorem looped_sent {client next : Client} {block : Bytes} {count : Nat} {events : List Event}
    {along : Prop} {calls : List Call} (rest : Looped next events along calls)
    (left : client.remaining = block ++ next.remaining) (short : count ≤ block.length)
    (counted : next.numtotal = client.numtotal + BitVec.ofNat 32 block.length)
    (same : next.totalbytes = client.totalbytes) :
    Looped client (.sendBlock (some count) :: events) (count = block.length ∧ along)
      (.send (block.take count) :: calls) := by
  have most := rest.most
  have flat : (sends (.send (block.take count) :: calls)).flatten =
      block.take count ++ (sends calls).flatten := rfl
  constructor
  case most =>
      rw [flat, left, List.length_append, List.length_append, List.length_take]
      omega
  case all =>
      rw [flat, left, ← rest.all]
      constructor
      · intro equal
        have lengths := congrArg List.length equal
        rw [List.length_append, List.length_append, List.length_take] at lengths
        have whole : count = block.length := by omega
        rw [whole, List.take_length] at equal
        exact ⟨whole, List.append_cancel_left equal⟩
      · rintro ⟨rfl, tail⟩
        rw [List.take_length, tail]
  case verdict =>
      have total : client.numtotal + BitVec.ofNat 32 client.remaining.length =
          next.numtotal + BitVec.ofNat 32 next.remaining.length := by
        rw [left, List.length_append, BitVec.ofNat_add, counted, BitVec.add_assoc]
      have here := rest.verdict
      rw [total, ← same]
      simpa [Completes] using here
  case unfailing => simpa using fun _ => rest.unfailing
  case announced => simpa using rest.announced

theorem loop_run {order : ByteOrder} {client last : Client} {events : List Event}
    {calls : List Call} (loop : InLoop client) (finished : last.pc = .finished)
    (ran : exec (step order) client events = some (last, calls)) :
    Looped client events (Along (step order) TakesAll client events) calls := by
  -- along the run from any turn of the loop; `remaining` and `numtotal` move together
  induction events generalizing client calls with
  | nil =>
      cases ran
      cases loop <;> simp_all
  | cons event rest ih =>
      obtain ⟨next, made, later, taken, tail, rfl⟩ := (Machine.exec_cons_iff ..).mp ran
      rw [Machine.along_cons_iff taken]
      cases turn_of_step taken with
      -- the calls before the loop
      | unopened here | opened here | named count here short | told data here fits
      | announced count here short => cases loop <;> simp_all
      | failed _ how =>
          obtain ⟨rfl, rfl⟩ := finished_stays rfl tail
          rcases how with ⟨here, _⟩ | ⟨here, _⟩ | ⟨here, _⟩ | ⟨block, here, rfl⟩
          iterate 3 cases loop <;> simp_all
          · cases loop with
            | reading other => simp [here] at other
            | sending own other more =>
                rw [here] at other
                cases other
                simpa [TakesAll] using looped_failed here more
      | ended here none =>
          obtain ⟨rfl, rfl⟩ := finished_stays rfl tail
          simpa [TakesAll, Along] using looped_ended here none
      | loaded here more =>
          simpa [TakesAll] using looped_loaded here (ih (.sending client.next rfl more) tail)
      | sent block count here short =>
          have kept := ih (.reading rfl) tail
          have all : TakesAll client (.sendBlock (some count)) ↔ count = block.length := by
            simp [TakesAll, Client.block, here]
          rw [all]
          refine looped_sent kept ?_ short rfl rfl
          simp [Client.remaining, Client.block, here]

def Client.begun (client : Client) (memory : Memory 4) (currbytes : Word) : Client where
  pc := .reading
  name := client.name
  file := client.file
  currbytes := memory
  totalbytes := BitVec.ofNat 32 client.file.length - currbytes
  numtotal := 0
  position := seek client.file.length currbytes

/-- The run from the offset on: either the size cannot be sent, or the loop follows. -/
inductive Opened (order : ByteOrder) (client : Client) (currbytes : Word) :
    List Event → List Call → Prop where
  | stopped : Opened order client currbytes [.sendSize none]
      [.starts currbytes, .failure, .close]
  | looped (memory : Memory 4) (count : Nat) (size : Bytes) (events : List Event)
      (later : List Call)
      (loop : Looped (client.begun memory currbytes) events
        (Along (step order) TakesAll (client.begun memory currbytes) events) later)
      (along : Along (step order) TakesAll client
          (.recvOffset (some (order.encode currbytes)) :: .sendSize (some count) :: events) ↔
        Along (step order) TakesAll (client.begun memory currbytes) events) :
      Opened order client currbytes (.sendSize (some count) :: events)
        (.starts currbytes :: .send size :: later)

theorem opened_of_run {order : ByteOrder} {client last : Client} {currbytes : Word}
    {rest : List Event} {calls : List Call}
    (ran : exec (step order) client (.recvOffset (some (order.encode currbytes)) :: rest) =
      some (last, calls)) (finished : last.pc = .finished) :
    Opened order client currbytes rest calls := by
  obtain ⟨told, made, later, taken, tail, rfl⟩ := (Machine.exec_cons_iff ..).mp ran
  cases turn_of_step taken with
  | failed _ how => simp at how
  | told data here fits =>
      cases rest with
      | nil =>
          cases tail
          cases finished
      | cons event events =>
          obtain ⟨next, made, final, stepped, loop, rfl⟩ := (Machine.exec_cons_iff ..).mp tail
          cases turn_of_step stepped with
          | unopened other | opened other | named count other short | told data other fits
          | ended other none | loaded other more | sent block count other short => cases other
          | failed _ how =>
              obtain ⟨rfl, rfl⟩ := finished_stays rfl loop
              simp only [reduceCtorEq, false_and, false_or, true_and, exists_false,
                or_false] at how
              subst how
              rw [IntBytes.decode_store]
              exact .stopped
          | announced count other short =>
              have along : Along (step order) TakesAll client
                  (.recvOffset (some (order.encode currbytes)) ::
                    .sendSize (some count) :: events) ↔ _ := (Machine.along_cons_iff taken).trans
                (and_congr_right fun _ => Machine.along_cons_iff stepped)
              simp only [TakesAll, true_and, IntBytes.decode_store] at along loop ⊢
              exact .looped (client.currbytes.store (order.encode currbytes) fits) count _ events
                final (loop_run (.reading rfl) finished loop) along

/-- `filesize - currbytes` is an `int`, and the transfer is reported complete just when
the offset is one of the file and `send` has taken all that follows. -/
structure Sound (file : Bytes) (currbytes : Word) (calls : List Call) : Prop where
  fits : BitVec.ssubOverflow (BitVec.ofNat 32 file.length) currbytes = false
  tells : Completes calls ↔ 0 ≤ currbytes.toInt ∧ currbytes.toInt ≤ file.length ∧
    accepted calls = file.drop currbytes.toNat

theorem toInt_size {size : Nat} (small : size ≤ INT_MAX) :
    (BitVec.ofNat 32 size).toInt = size := by
  rw [INT_MAX] at small
  rw [BitVec.toInt_eq_toNat_of_lt] <;> simp only [BitVec.toNat_ofNat] <;> omega

theorem fits_iff {size : Nat} (small : size ≤ INT_MAX) (currbytes : Word) :
    BitVec.ssubOverflow (BitVec.ofNat 32 size) currbytes = false ↔
      (size : Int) - currbytes.toInt ≤ INT_MAX := by
  have above := @BitVec.toInt_lt 32 currbytes
  rw [BitVec.ssubOverflow, toInt_size small, INT_MAX]
  simp only [Bool.or_eq_false_iff, decide_eq_false_iff_not]
  omega

theorem seek_cases (size : Nat) (currbytes : Word) :
    (currbytes.toInt < 0 ∧ seek size currbytes = size) ∨
      (currbytes.toInt = currbytes.toNat ∧ seek size currbytes = currbytes.toNat) := by
  cases sign : currbytes.msb with
  | true =>
      have negative := sign
      rw [BitVec.msb_eq_toInt, decide_eq_true_eq] at negative
      exact .inl ⟨negative, by simp [seek, sign]⟩
  | false => exact .inr ⟨BitVec.toInt_eq_toNat_of_msb sign, by simp [seek, sign]⟩

theorem remaining_begun (client : Client) (memory : Memory 4) (currbytes : Word) :
    (client.begun memory currbytes).remaining =
      client.file.drop (seek client.file.length currbytes) := rfl

theorem remaining_begun_outside {client : Client} {memory : Memory 4} {currbytes : Word}
    (outside : ¬(0 ≤ currbytes.toInt ∧ currbytes.toInt ≤ client.file.length)) :
    (client.begun memory currbytes).remaining = [] := by
  rw [remaining_begun, List.drop_eq_nil_iff]
  rcases seek_cases client.file.length currbytes with ⟨_, same⟩ | ⟨plain, same⟩
  · exact same.ge
  · omega

theorem remaining_begun_inside {client : Client} {memory : Memory 4} {currbytes : Word}
    (inside : 0 ≤ currbytes.toInt ∧ currbytes.toInt ≤ client.file.length) :
    (client.begun memory currbytes).remaining = client.file.drop currbytes.toNat ∧
      currbytes.toNat ≤ client.file.length := by
  rw [remaining_begun]
  rcases seek_cases client.file.length currbytes with ⟨negative, _⟩ | ⟨plain, same⟩
  · exact absurd inside.1 (by omega)
  · exact ⟨by rw [same], by omega⟩

/-- What is left makes up `totalbytes` just when the offset is one of the file. -/
theorem verdict_begun {client : Client} {memory : Memory 4} {currbytes : Word}
    (small : client.file.length ≤ INT_MAX) :
    (client.begun memory currbytes).numtotal +
        BitVec.ofNat 32 (client.begun memory currbytes).remaining.length =
      (client.begun memory currbytes).totalbytes ↔
    0 ≤ currbytes.toInt ∧ currbytes.toInt ≤ client.file.length := by
  change 0#32 + _ = BitVec.ofNat 32 client.file.length - currbytes ↔ _
  rw [BitVec.zero_add, BitVec.eq_sub_iff_add_eq]
  by_cases inside : 0 ≤ currbytes.toInt ∧ currbytes.toInt ≤ client.file.length
  · obtain ⟨left, most⟩ := @remaining_begun_inside client memory currbytes inside
    refine iff_of_true ?_ inside
    have offset : BitVec.ofNat 32 currbytes.toNat = currbytes := by simp
    rw [left, List.length_drop, ← offset, BitVec.toNat_ofNat, Nat.mod_eq_of_lt currbytes.isLt,
      ← BitVec.ofNat_add, Nat.sub_add_cancel most]
  · refine iff_of_false (fun equal => inside ?_) inside
    rw [remaining_begun_outside inside, List.length_nil, BitVec.zero_add] at equal
    rw [equal, toInt_size small]
    omega

/-- Where the size cannot be sent nothing is reported, and nothing is to be reported but
for an offset at the end of the file. -/
theorem tells_stopped (file : Bytes) (currbytes : Word) :
    (Completes [.starts currbytes, .failure, .close] ↔
      0 ≤ currbytes.toInt ∧ currbytes.toInt ≤ file.length ∧
        accepted [.starts currbytes, .failure, .close] = file.drop currbytes.toNat) ↔
      currbytes.toInt ≠ file.length := by
  have silent : ¬Completes [.starts currbytes, .failure, .close] := by simp [Completes]
  have nothing : accepted [.starts currbytes, .failure, .close] = [] := rfl
  rw [nothing, iff_false_left silent, @eq_comm _ [], List.drop_eq_nil_iff]
  rcases seek_cases file.length currbytes with ⟨negative, _⟩ | ⟨plain, _⟩ <;> omega

theorem tells_looped {client : Client} {memory : Memory 4} {currbytes : Word}
    {events : List Event} {along : Prop} {later : List Call} (small : client.file.length ≤ INT_MAX)
    (loop : Looped (client.begun memory currbytes) events along later) :
    (Completes later ↔ 0 ≤ currbytes.toInt ∧ currbytes.toInt ≤ client.file.length ∧
        (sends later).flatten = client.file.drop currbytes.toNat) ↔
      .sendBlock none ∈ events ∨ along := by
  have verdict := loop.verdict.trans (and_congr_right' (verdict_begun small))
  have all := loop.all
  rw [verdict]
  by_cases inside : 0 ≤ currbytes.toInt ∧ currbytes.toInt ≤ client.file.length
  -- the counts agree at the end, so the report says only that no `send` has failed
  · rw [(remaining_begun_inside inside).1] at all
    rw [all, and_iff_left inside, and_iff_right inside.1, and_iff_right inside.2]
    constructor
    · intro same
      by_cases fails : Event.sendBlock none ∈ events
      · exact .inl fails
      · exact .inr (same.mp fails)
    · rintro (fails | whole)
      · exact iff_of_false (not_not_intro fails) fun whole => loop.unfailing whole fails
      · exact iff_of_true (loop.unfailing whole) whole
  -- nothing is left to send, and the counts differ
  · have most := loop.most
    rw [remaining_begun_outside inside] at most all
    have whole := all.mp (List.length_eq_zero_iff.mp (Nat.le_zero.mp most))
    exact iff_of_true (iff_of_false (fun both => inside both.2)
      (fun three => inside ⟨three.1, three.2.1⟩)) (.inr whole)

/-- All is right but for a negative offset too far from the size, for a size that could
not be sent with nothing to follow it, and for a `send` that takes only a part of its
block in a run in which none fails. -/
theorem upload_offset_iff (order : ByteOrder) (client : Client) (currbytes : Word)
    (rest : List Event) (last : Client) (calls : List Call)
    (small : client.file.length ≤ INT_MAX)
    (ran : exec (step order) client (.recvOffset (some (order.encode currbytes)) :: rest) =
      some (last, calls))
    (finished : last.pc = .finished) :
    Sound client.file currbytes calls ↔
      (client.file.length : Int) - currbytes.toInt ≤ INT_MAX ∧
        (.sendSize none ∈ rest → currbytes.toInt ≠ client.file.length) ∧
        (.sendBlock none ∈ rest ∨ Along (step order) TakesAll client
          (.recvOffset (some (order.encode currbytes)) :: rest)) := by
  have sound : Sound client.file currbytes calls ↔
      (client.file.length : Int) - currbytes.toInt ≤ INT_MAX ∧ (Completes calls ↔
        0 ≤ currbytes.toInt ∧ currbytes.toInt ≤ client.file.length ∧
          accepted calls = client.file.drop currbytes.toNat) :=
    ⟨fun here => ⟨(fits_iff small currbytes).mp here.fits, here.tells⟩,
      fun here => ⟨(fits_iff small currbytes).mpr here.1, here.2⟩⟩
  rw [sound]
  refine and_congr_right fun _ => ?_
  cases opened_of_run ran finished with
  | stopped =>
      have along : Along (step order) TakesAll client
          [.recvOffset (some (order.encode currbytes)), .sendSize none] :=
        ⟨trivial, fun _ _ _ => ⟨trivial, fun _ _ _ => trivial⟩⟩
      simp only [tells_stopped, List.mem_singleton, true_imp_iff, along, or_true, and_true]
  | looped memory count size events later loop along =>
      have completes : Completes (.starts currbytes :: .send size :: later) ↔ Completes later := by
        simp [Completes]
      have data : accepted (.starts currbytes :: .send size :: later) = (sends later).flatten := rfl
      have failed : Event.sendBlock none ∈ Event.sendSize (some count) :: events ↔
          Event.sendBlock none ∈ events := by simp
      have announced : Event.sendSize none ∉ Event.sendSize (some count) :: events := by
        simpa using loop.announced
      rw [along, completes, data, failed, tells_looped small loop]
      exact (and_iff_right fun sent => absurd sent announced).symm

def threeBytes : Client where
  pc := .recvOffset
  name := [97]
  file := [1, 2, 3]
  currbytes := .zeros 4
  totalbytes := 0
  numtotal := 0
  position := 0

def oneBlock (count : Nat) : List Event :=
  [.sendSize (some 4), .fread, .sendBlock (some count), .fread]

theorem upload_offset_oneBlock : ∃ last calls,
    exec (step IntBytes.bigEndian) threeBytes
        (.recvOffset (some (IntBytes.bigEndian.encode 1)) :: oneBlock 2) = some (last, calls) ∧
      Sound [1, 2, 3] 1 calls := by
  refine ⟨_, _, rfl, ?_⟩
  refine (upload_offset_iff IntBytes.bigEndian threeBytes 1 (oneBlock 2) _ _ (by decide) rfl
    rfl).mpr ⟨by decide, by simp [oneBlock], .inr ?_⟩
  exact (Machine.misses_zero_iff _ _).mp (by decide +kernel)

/-- `send` takes the last byte but not the one before it; the transfer is reported complete. -/
theorem completes_byte_short :
    ¬ ∀ (order : ByteOrder) (client : Client) (currbytes : Word) (rest : List Event)
      (last : Client) (calls : List Call), client.file.length ≤ INT_MAX →
      (∀ count, .sendSize (some count) ∈ rest ∨ .sendBlock (some count) ∈ rest → 0 < count) →
      exec (step order) client (.recvOffset (some (order.encode currbytes)) :: rest) =
        some (last, calls) →
      last.pc = .finished → Sound client.file currbytes calls := by
  intro all
  have shown : (exec (step IntBytes.bigEndian) threeBytes
      (.recvOffset (some (IntBytes.bigEndian.encode 1)) :: oneBlock 1)).map
        (fun result => (result.1.pc, result.2)) =
      some (.finished, [.starts 1, .send (IntBytes.bigEndian.encode 2), .send [2], .complete 3,
        .close]) := by decide +kernel
  obtain ⟨⟨last, calls⟩, ran, same⟩ := Option.map_eq_some_iff.mp shown
  obtain ⟨finished, rfl⟩ := Prod.mk.inj same
  have sound := all IntBytes.bigEndian threeBytes 1 (oneBlock 1) last _ (by decide)
    (by simp [oneBlock]) ran finished
  have data := (sound.tells.mp ⟨3, by simp⟩).2.2
  revert data
  decide

end NetworkTest.FileClient
