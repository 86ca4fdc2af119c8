import Mathlib.Data.List.TakeDrop
import NetworkTest.FileClient
import NetworkTest.FileServer
import NetworkTest.WholeClient
import NetworkTest.WholeServer

/-!
The name field of both upload protocols: 256 bytes, padded by the client. The
server of hw1 gives the field to `fopen` as it has come, so the string ends where
memory has the next zero; that of hw2 puts a zero behind the bytes it received.
-/

namespace NetworkTest.NameField

open CBuffer (Bytes Memory cstring strncpy)
open IntBytes (ByteOrder)
open Machine (exec)

/-- `fopen` gets the name in the array, with `behind` next to it in memory, and finds
its end in the array. -/
structure Kept (name array behind : Bytes) : Prop where
  inside : 0 ∈ array
  same : cstring (array ++ behind) = name

/-- The server of hw1 in a session with a client that has opened the file `name`,
with the name in hand. -/
inductive WholeSession (name : Bytes) (last : WholeServer.Server) : Prop where
  | named (file field : Bytes) (client : WholeClient.Client) (server : WholeServer.Server)
      (events : List WholeServer.Event) (printed : List WholeServer.Call)
      (sent : exec WholeClient.step (WholeClient.start name file)
        [.openRead true, .sendName (some WholeClient.NAMESIZE)] = some (client, [.send field]))
      (received : exec WholeServer.step server (.recvName (some field) :: events) =
        some (last, printed))
      (session : .accept ∉ events)

/-- The same of hw2. -/
inductive Session (order : ByteOrder) (name : Bytes) (last : FileServer.Server) : Prop where
  | named (file field : Bytes) (memory : Memory 4) (client : FileClient.Client)
      (server : FileServer.Server) (events : List FileServer.Event)
      (printed : List FileServer.Call)
      (sent : exec (FileClient.step order) (FileClient.start name file memory)
        [.openRead true, .sendName (some FileClient.NAMESIZE)] = some (client, [.send field]))
      (received : exec (FileServer.step order) server (.recvName (some field) :: events) =
        some (last, printed))
      (session : .accept ∉ events)

theorem kept_iff {array : Bytes} (name behind : Bytes) :
    Kept name array behind ↔ 0 ∈ array ∧ cstring array = name := by
  constructor
  · rintro ⟨inside, same⟩
    exact ⟨inside, by rwa [CBuffer.cstring_append_of_zero inside] at same⟩
  · rintro ⟨inside, same⟩
    exact ⟨inside, by rwa [CBuffer.cstring_append_of_zero inside]⟩

theorem strncpy_whole (name : Bytes) (size : Nat) :
    (strncpy name size).take size = strncpy name size :=
  List.take_of_length_le (CBuffer.strncpy_length ..).le

theorem cstring_field {name : Bytes} (nonzero : ∀ byte ∈ name, byte ≠ 0) (size : Nat) :
    cstring (strncpy name size) = name.take size := by
  rw [← strncpy_whole, CBuffer.cstring_strncpy_take nonzero (Nat.le_refl _)]

theorem whole_field_sent (name file : Bytes) :
    exec WholeClient.step (WholeClient.start name file)
        [.openRead true, .sendName (some WholeClient.NAMESIZE)] =
      some ({ WholeClient.start name file with
        length := BitVec.ofNat 32 file.length, pc := .allocating },
        [.send (strncpy name WholeClient.NAMESIZE)]) := by
  rw [← strncpy_whole]
  rfl

theorem field_sent (order : ByteOrder) (name file : Bytes) (memory : Memory 4) :
    exec (FileClient.step order) (FileClient.start name file memory)
        [.openRead true, .sendName (some FileClient.NAMESIZE)] =
      some ({ FileClient.start name file memory with pc := .recvOffset },
        [.send (strncpy name FileClient.NAMESIZE)]) := by
  rw [← strncpy_whole]
  rfl

theorem whole_name_stays {server next : WholeServer.Server} {event : WholeServer.Event}
    {made : List WholeServer.Call} (later : server.pc ≠ .recvName) (same : event ≠ .accept)
    (turn : WholeServer.Turn server event next made) :
    next.filename = server.filename ∧ next.pc ≠ .recvName := by
  cases turn with
  | accepted idle => exact absurd rfl same
  | nameless result here nothing => exact absurd here later
  | named data here some_ fits => exact absurd here later
  | _ => exact ⟨rfl, by simp⟩

theorem name_stays {order : ByteOrder} {server next : FileServer.Server}
    {event : FileServer.Event} {made : List FileServer.Call} (later : server.pc ≠ .recvName)
    (same : event ≠ .accept) (turn : FileServer.Turn order server event next made) :
    next.filename = server.filename ∧ next.pc ≠ .recvName := by
  cases turn with
  | accepted idle => exact absurd rfl same
  | nameFailed here => exact absurd here later
  | named data here fits => exact absurd here later
  | _ => exact ⟨rfl, by simp [FileServer.finish]⟩

theorem whole_filename {name : Bytes} {last : WholeServer.Server}
    (session : WholeSession name last) :
    last.filename.val = strncpy name WholeServer.NAMESIZE := by
  obtain ⟨file, field, client, server, events, printed, sent, received, session⟩ := session
  have whole : field = strncpy name WholeServer.NAMESIZE := by
    rw [whole_field_sent] at sent
    cases sent
    rfl
  obtain ⟨got, made, later, taken, tail, rfl⟩ := (Machine.exec_cons_iff ..).mp received
  have begins : got.filename.val = strncpy name WholeServer.NAMESIZE ∧ got.pc ≠ .recvName := by
    subst whole
    cases WholeServer.turn_of_step taken with
    -- the field has 256 bytes, so the receive is not an empty one
    | nameless _ here nothing =>
        have long := CBuffer.strncpy_length name WholeServer.NAMESIZE
        rcases nothing with failed | empty
        · cases failed
        · rw [Option.some.inj empty] at long
          cases long
    | named data here some_ fits =>
        exact ⟨congrArg Subtype.val (CBuffer.store_whole server.filename
          ⟨_, CBuffer.strncpy_length name WholeServer.NAMESIZE⟩), by simp⟩
  -- without another `accept` no name is received again
  have kept := Machine.exec_invariant_forall
    (fun _ server => server.filename = got.filename ∧ server.pc ≠ .recvName)
    (fun _ _ _ _ _ kept other taken =>
      have stays := whole_name_stays kept.2 other (WholeServer.turn_of_step taken)
      ⟨stays.1.trans kept.1, stays.2⟩)
    ⟨rfl, begins.2⟩ (fun event member same => session (same ▸ member)) tail
  rw [kept.1, begins.1]

theorem filename_ends {order : ByteOrder} {name : Bytes} {last : FileServer.Server}
    (nonzero : ∀ byte ∈ name, byte ≠ 0) (session : Session order name last) :
    0 ∈ last.filename.val ∧ cstring last.filename.val = name.take FileServer.NAMESIZE := by
  obtain ⟨file, field, memory, client, server, events, printed, sent, received, session⟩ := session
  have whole : field = strncpy name FileServer.NAMESIZE := by
    rw [field_sent] at sent
    cases sent
    rfl
  obtain ⟨got, made, later, taken, tail, rfl⟩ := (Machine.exec_cons_iff ..).mp received
  have begins : (0 ∈ got.filename.val ∧ cstring got.filename.val =
      name.take FileServer.NAMESIZE) ∧ got.pc ≠ .recvName := by
    subst whole
    cases FileServer.turn_of_step taken with
    | named data here fits =>
        refine ⟨⟨?_, ?_⟩, ?_⟩
        · exact CBuffer.zero_mem_store_set server.filename (Nat.lt_succ_of_le fits)
        · exact (FileServer.storeName_name server fits).trans (cstring_field nonzero _)
        · dsimp only
          split <;> simp
  have kept := Machine.exec_invariant_forall
    (fun _ server => server.filename = got.filename ∧ server.pc ≠ .recvName)
    (fun _ _ _ _ _ kept other taken =>
      have stays := name_stays kept.2 other (FileServer.turn_of_step taken)
      ⟨stays.1.trans kept.1, stays.2⟩)
    ⟨rfl, begins.2⟩ (fun event member same => session (same ▸ member)) tail
  rw [kept.1]
  exact begins.1

/-- The name that `fopen` gets is the client's, and ends in the array, just when it is
shorter than 256 bytes in hw1, and no longer than that in hw2. -/
theorem name_kept_iff (name behind : Bytes) (nonzero : ∀ byte ∈ name, byte ≠ 0) :
    (∀ last, WholeSession name last →
      (Kept name last.filename.val behind ↔ name.length < 256)) ∧
    (∀ order last, Session order name last →
      (Kept name last.filename.val behind ↔ name.length ≤ 256)) := by
  constructor
  · intro last session
    rw [kept_iff, whole_filename session, CBuffer.zero_mem_strncpy_iff nonzero,
      cstring_field nonzero, List.take_eq_self_iff]
    exact and_iff_left_of_imp Nat.le_of_lt
  · intro order last session
    obtain ⟨ends, same⟩ := filename_ends nonzero session
    rw [kept_iff, same, List.take_eq_self_iff]
    exact and_iff_right ends

theorem wholeSession_of_name (name : Bytes) : ∃ last, WholeSession name last := by
  obtain ⟨first, rest, field⟩ : ∃ first rest,
      strncpy name WholeServer.NAMESIZE = first :: rest :=
    List.exists_cons_of_length_pos (by rw [CBuffer.strncpy_length]; decide)
  have fits : (first :: rest).length ≤ WholeServer.NAMESIZE := by
    rw [← field, CBuffer.strncpy_length]
  let server : WholeServer.Server :=
    { pc := .recvName, files := fun _ => none, filename := .zeros _, totalbytes := 0 }
  have sent := whole_field_sent name []
  rw [WholeClient.NAMESIZE, ← WholeServer.NAMESIZE, field] at sent
  have taken : WholeServer.step server (.recvName (some (first :: rest))) = some _ := dif_pos fits
  exact ⟨_, .named [] _ _ server [] _ sent (Machine.exec_single taken) (by simp)⟩

theorem session_of_name (order : ByteOrder) (name : Bytes) :
    ∃ last, Session order name last := by
  let server : FileServer.Server :=
    { pc := .recvName, files := fun _ => none, filename := .zeros _, currbytes := 0,
      totalbytes := .zeros 4, numtotal := 0 }
  have sent := field_sent order name [] (.zeros 4)
  have fits : (strncpy name FileClient.NAMESIZE).length ≤ FileServer.NAMESIZE := by
    rw [CBuffer.strncpy_length, FileClient.NAMESIZE, FileServer.NAMESIZE]
  have taken : FileServer.step order server (.recvName (some (strncpy name FileClient.NAMESIZE))) =
      some _ := dif_pos fits
  exact ⟨_, .named [] _ _ _ server [] _ sent (Machine.exec_single taken) (by simp)⟩

theorem name_kept_short :
    (∃ last, WholeSession [97] last ∧ Kept [97] last.filename.val [98]) ∧
      ∃ last, Session IntBytes.littleEndian [97] last ∧ Kept [97] last.filename.val [98] := by
  have kept := name_kept_iff [97] [98] (by simp)
  obtain ⟨whole, begun⟩ := wholeSession_of_name [97]
  obtain ⟨resumed, session⟩ := session_of_name IntBytes.littleEndian [97]
  exact ⟨⟨whole, begun, (kept.1 whole begun).mpr (by decide)⟩,
    resumed, session, (kept.2 _ resumed session).mpr (by decide)⟩

/-- A name of 256 bytes fills the array of hw1. -/
theorem full_name_unended :
    ¬ ∀ name behind : Bytes, (∀ byte ∈ name, byte ≠ 0) →
      (∀ last, WholeSession name last → Kept name last.filename.val behind) ∧
      (∀ order last, Session order name last → Kept name last.filename.val behind) := by
  intro all
  have nonzero : ∀ byte ∈ List.replicate 256 (97 : UInt8), byte ≠ 0 := fun byte member => by
    rw [List.eq_of_mem_replicate member]
    decide
  obtain ⟨last, session⟩ := wholeSession_of_name (List.replicate 256 97)
  have inside := ((all _ [] nonzero).1 last session).inside
  rw [whole_filename session, CBuffer.zero_mem_strncpy_iff nonzero, List.length_replicate] at inside
  exact Nat.lt_irrefl _ inside

end NetworkTest.NameField
