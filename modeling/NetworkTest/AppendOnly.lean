import NetworkTest.FileServer

/-!
The upload server of thu/hw2 only adds to files. The name is set once in a
session, by the bytes received for it, and every change to a file is an append
under that name.
-/

namespace NetworkTest.FileServer

open CBuffer (Bytes Memory cstring)
open Directory (Files Grows)
open IntBytes (ByteOrder)
open Machine (Step exec Along)

def Named (events : List Event) (name : Bytes) : Prop :=
  ∃ data, Event.recvName (some data) ∈ events ∧ cstring data = name

/-- The session has a name, from its receipt to the end. -/
def Session (server : Server) : Prop :=
  server.pc ≠ .accepting ∧ server.pc ≠ .recvName ∧ server.pc ≠ .exited

/-- The file has not been touched, and the session's name is another. -/
structure Spared (files : Files Bytes UInt8) (name : Bytes) (server : Server) : Prop where
  same : server.files name = files name
  other : Session server → server.name ≠ name

theorem spared_turn {order : ByteOrder} {files : Files Bytes UInt8} {name : Bytes}
    {server next : Server} {event : Event} {made : List Call} (spared : Spared files name server)
    (unnamed : ∀ data, event = .recvName (some data) → cstring data ≠ name)
    (turn : Turn order server event next made) : Spared files name next := by
  -- within a session the name stays, and an append to it leaves the file alone
  have appended : ∀ data, Session server →
      Directory.append server.files server.name data name = files name := by
    intro data session
    rw [Directory.append_other data (spared.other session).symm, spared.same]
  cases turn with
  | accepted idle | acceptFailed idle | nameFailed here =>
      exact ⟨spared.same, by simp [Session]⟩
  | named data here fits =>
      refine ⟨spared.same, fun _ => ?_⟩
      change (storeName server data fits).name ≠ name
      rw [storeName_name]
      exact unnamed data rfl
  | unreadable here => exact ⟨spared.same, by simp [Session]⟩
  | measured here => exact ⟨spared.same, fun _ => spared.other (by simp [Session, here])⟩
  | offsetFailed here => exact ⟨spared.same, by simp [Session]⟩
  | offsetSent count here short =>
      exact ⟨spared.same, fun _ => spared.other (by simp [Session, here])⟩
  | sizeFailed here => exact ⟨spared.same, by simp [Session]⟩
  | sized data here fits => exact ⟨spared.same, fun _ => spared.other (by simp [Session, here])⟩
  | unopened here => exact ⟨spared.same, by simp [Session]⟩
  | opened here _ =>
      have session : Session server := by simp [Session, here]
      exact ⟨appended [] session, fun _ => spared.other session⟩
  | ended result printed here last => exact ⟨spared.same, by simp [Session, finish]⟩
  | received block here more short =>
      exact ⟨spared.same, fun _ => spared.other (by simp [Session, here])⟩
  | stored block here =>
      have session : Session server := by simp [Session, here]
      exact ⟨appended block session, fun _ => spared.other session⟩
  | storedPart block written here part =>
      exact ⟨appended _ (by simp [Session, here]), by simp [Session]⟩

theorem grows_run {order : ByteOrder} {server last : Server} {events : List Event}
    {calls : List Call} (ran : exec (step order) server events = some (last, calls)) :
    Grows server.files last.files :=
  Machine.exec_invariant (fun _ now => Grows server.files now.files)
    (fun _ _ _ _ _ grows taken =>
      Directory.grows_trans grows (turn_grows (turn_of_step taken)))
    (Directory.grows_refl _) ran

/-- From the beginning of a session on, whatever is received and whichever call
fails, each file keeps its content in front, and one whose name is not received
stays as it is. -/
theorem session_appends (order : ByteOrder) (server : Server) (begins : server.pc = .recvName)
    (events : List Event) (last : Server) (calls : List Call)
    (ran : exec (step order) server events = some (last, calls)) :
    (∀ name content, server.files name = some content →
      ∃ more, last.files name = some (content ++ more)) ∧
      ∀ name, ¬ Named events name → last.files name = server.files name := by
  refine ⟨grows_run ran, fun name unnamed => ?_⟩
  have kept := Machine.exec_invariant_forall (fun _ => Spared server.files name)
    (fun _ _ _ _ _ spared other taken => spared_turn spared other (turn_of_step taken))
    ⟨rfl, by simp [Session, begins]⟩
    (fun event member data same called => unnamed ⟨data, by rwa [← same], called⟩) ran
  exact kept.same

/-- The name is followed by a zero and more; of the block only one byte is stored. -/
def brokenUpload : List Event :=
  [.recvName (some [97, 0, 98]), .openRead true, .sendOffset (some 4),
    .recvSize (some [9, 0, 0, 0]), .openAppend true, .recvData (some [2, 3]), .fwrite 1]

def oneFile : Server where
  pc := .recvName
  files := fun name => if name = [97] then some [1] else if name = [98] then some [7] else none
  filename := .zeros _
  currbytes := 0
  totalbytes := .zeros 4
  numtotal := 0

theorem session_appends_brokenUpload :
    ∃ last calls, exec (step IntBytes.littleEndian) oneFile brokenUpload = some (last, calls) ∧
      (∃ more, last.files [97] = some ([1] ++ more)) ∧ last.files [98] = some [7] := by
  have holds := session_appends IntBytes.littleEndian oneFile rfl brokenUpload _ _ rfl
  refine ⟨_, _, rfl, holds.1 [97] [1] rfl, holds.2 [98] ?_⟩
  rintro ⟨data, received, name⟩
  simp only [brokenUpload, List.mem_cons, List.not_mem_nil, reduceCtorEq, Event.recvName.injEq,
    Option.some.injEq, or_false] at received
  subst received
  cases name

end NetworkTest.FileServer
