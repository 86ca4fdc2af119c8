import NetworkTest.UploadResume
import NetworkTest.WholeUpload

/-!
The two ways to upload a file that the server does not have. One sends it
whole and writes it anew, the other agrees on an offset and a size first and
appends blocks; both leave the same directory.
-/

namespace NetworkTest.UploadsAgree

open CBuffer (Bytes)
open Directory (Files contents)
open IntBytes (Word ByteOrder INT_MAX)
open Channel (Link)
open Machine (Step exec Along)
open Upload (Request SessionInv busy)

/-- One session from the first step to the server's return to `accept`, with a
connection that was not cut. -/
structure Completes (order : ByteOrder) (clientFile : Bytes → Bytes) (name : Bytes)
    (system last : Upload.System) (memory : CBuffer.Memory 4) (events : List Upload.Event)
    (calls : List Upload.Call) : Prop where
  one : ∀ event ∈ events, event.connects = false
  guarded : Along (Upload.step order clientFile) Upload.UploadOk system
    (.connect name memory :: events)
  ran : exec (Upload.step order clientFile) system (.connect name memory :: events) =
    some (last, calls)
  idle : last.server.pc = .accepting
  held : last.up.broken = false

structure BlocksInv (order : ByteOrder) (origin : Files Bytes UInt8) (request : Request)
    (system : Upload.System) : Prop where
  session : busy system.server.pc = true → SessionInv order origin request system
  past : system.server.pc = .accepting → system.up.broken = false →
    system.server.files = Directory.append origin request.key request.payload

theorem blocks_server {order : ByteOrder} {origin : Files Bytes UInt8} {request : Request}
    {system : Upload.System} {event : FileServer.Event} {server : FileServer.Server}
    {up : Link UInt8} {made : List FileServer.Call}
    (inv : BlocksInv order origin request system) (ok : Upload.UploadOk system (.server event))
    (other : event ≠ .accept) (turn : FileServer.Turn order system.server event server made)
    (took : FileServer.takes system.up event = some up) :
    BlocksInv order origin request
      { system with
        server := server
        up := up
        down := FileServer.transmit system.down made } := by
  cases state : busy system.server.pc with
  | true =>
      have session := inv.session state
      constructor
      · exact fun stays =>
          Upload.session_server session ok.1 other turn took ((Upload.busy_iff _).mp stays)
      · exact fun idle held => Upload.over_files session ok turn took idle held
  | false =>
      cases turn with
      | accepted => exact absurd rfl other
      | acceptFailed here => exact ⟨(fun stays => nomatch stays), (fun idle => nomatch idle)⟩
      | ended _ _ here => simp [here, busy] at state
      | storedPart _ _ here => simp [here, busy] at state
      | _ => simp_all [busy]

theorem blocks_step {order : ByteOrder} {clientFile : Bytes → Bytes}
    {origin : Files Bytes UInt8} {request : Request} {system next : Upload.System}
    {event : Upload.Event} {made : List Upload.Call}
    (inv : BlocksInv order origin request system) (ok : Upload.UploadOk system event)
    (one : event.connects = false)
    (turn : Upload.Turn order clientFile system event next made) :
    BlocksInv order origin request next := by
  cases turn with
  | connected name memory idle => cases one
  | served event server up made other turn took => exact blocks_server inv ok other turn took
  | conversed event client down made turn took =>
      constructor
      · exact fun stays => Upload.session_client (inv.session stays) ok.1 turn took
      · exact fun idle held =>
          inv.past idle ((FileClient.transmit_broken ..).symm.trans held)
  | cut up down =>
      exact ⟨fun stays => Upload.session_cut (inv.session stays) up down,
        fun _ held => nomatch held⟩

/-- A complete session puts the rest of the file behind what the server has. -/
theorem completes_appended {order : ByteOrder} {clientFile : Bytes → Bytes} {name : Bytes}
    {system last : Upload.System} {memory : CBuffer.Memory 4} {events : List Upload.Event}
    {calls : List Upload.Call}
    (complete : Completes order clientFile name system last memory events calls) :
    last.server.files = Directory.append system.server.files (name.take FileClient.NAMESIZE)
      (Upload.request system.server.files name (clientFile name)).payload := by
  obtain ⟨next, made, later, taken, tail, rfl⟩ := (Machine.exec_cons_iff ..).mp complete.ran
  have follows := Machine.along_of_forall next events complete.one
    (complete.guarded.2 next made taken)
  cases Upload.turn_of_step taken with
  | connected _ _ idle =>
      have started : BlocksInv order system.server.files
          (Upload.request system.server.files name (clientFile name))
          (Upload.session system.server name (clientFile name) memory) := by
        refine ⟨fun _ => ?_, (fun idle => nomatch idle)⟩
        exact Upload.session_start order _ _ _ complete.guarded.1.1
      have inv := Machine.exec_invariant_along
        (fun _ state => BlocksInv order system.server.files
          (Upload.request system.server.files name (clientFile name)) state)
        (fun _ _ _ _ _ inv met taken =>
          blocks_step inv met.1 met.2 (Upload.turn_of_step taken))
        started follows tail
      exact inv.past complete.idle complete.held

theorem payload_absent {files : Files Bytes UInt8} {name file : Bytes}
    (absent : files (name.take FileClient.NAMESIZE) = none) (small : file.length ≤ INT_MAX) :
    (Upload.request files name file).payload = file := by
  have nothing : (Upload.request files name file).old = [] := by
    rw [Upload.request, contents, absent, Option.getD_none]
  have whole : (Upload.request files name file).old ++
      (Upload.request files name file).payload = file := by
    apply (Request.resumed_iff small).mpr
    rw [nothing]
    exact List.nil_prefix
  rw [nothing, List.nil_append] at whole
  exact whole

/-- For a name that is free on the server, both programs put the client's file
there, whatever the pieces in which the streams are read, and touch no other
file. -/
theorem uploads_agree (order : ByteOrder) (clientFile : Bytes → Bytes) (name : Bytes)
    (memory : CBuffer.Memory 4) (whole wholeLast : WholeUpload.System)
    (blocks blocksLast : Upload.System) (wholeEvents : List WholeUpload.Event)
    (blockEvents : List Upload.Event) (wholeCalls : List WholeUpload.Call)
    (blockCalls : List Upload.Call) (named : name ≠ [] ∧ ∀ byte ∈ name, byte ≠ 0)
    (fits : name.length ≤ 255) (small : (clientFile name).length ≤ INT_MAX)
    (absent : whole.server.files name = none ∧ blocks.server.files name = none)
    (first : WholeUpload.Completes clientFile name whole wholeLast wholeEvents wholeCalls)
    (second : Completes order clientFile name blocks blocksLast memory blockEvents blockCalls) :
    wholeLast.server.files name = some (clientFile name) ∧
      blocksLast.server.files name = some (clientFile name) ∧
      ∀ other, other ≠ name → wholeLast.server.files other = whole.server.files other ∧
        blocksLast.server.files other = blocks.server.files other := by
  have key : name.take FileClient.NAMESIZE = name :=
    List.take_of_length_le (Nat.le_succ_of_le fits)
  have anew : wholeLast.server.files =
      Directory.append whole.server.files name (clientFile name) := by
    rw [WholeUpload.completes_written first named fits small, WholeUpload.written,
      Directory.truncate_absent absent.1, Directory.append_append, List.nil_append]
  have rest := completes_appended second
  rw [key, payload_absent (by rw [key]; exact absent.2) small] at rest
  refine ⟨?_, ?_, fun other differs => ⟨?_, ?_⟩⟩
  · rw [anew, Directory.append_same, contents, absent.1, Option.getD_none, List.nil_append]
  · rw [rest, Directory.append_same, contents, absent.2, Option.getD_none, List.nil_append]
  · rw [anew, Directory.append_other _ differs]
  · rw [rest, Directory.append_other _ differs]

def twoReads : List WholeUpload.Event :=
  [.client (.openRead true), .client (.sendName (some 256)),
    .server (.recvName (some (CBuffer.strncpy [97] 256))), .client (.malloc true),
    .server (.openWrite true), .client (.fread 3), .client (.sendFile (some 3)),
    .server (.recvData (some [1])), .server (.fwrite 1), .server (.recvData (some [2, 3])),
    .server (.fwrite 2), .server (.recvData (some []))]

def oneBlock : List Upload.Event :=
  [.client (.openRead true), .client (.sendName (some 256)),
    .server (.recvName (some (CBuffer.strncpy [97] 256))), .server (.sendOffset (some 4)),
    .client (.recvOffset (some [0, 0, 0, 0])), .client (.sendSize (some 4)),
    .client .fread, .client (.sendBlock (some 3)), .client .fread,
    .server (.recvSize (some [3, 0, 0, 0])), .server (.openAppend true),
    .server (.recvData (some [1, 2, 3])), .server (.fwrite 3), .server (.recvData (some []))]

def emptyWhole : WholeUpload.System := WholeUpload.start (fun _ => none) (.zeros _)

def emptyBlocks : Upload.System := Upload.start (fun _ => none) (.zeros _) (.zeros _)

theorem uploads_agree_threeBytes :
    ∃ wholeLast wholeCalls blocksLast blockCalls,
      exec (WholeUpload.step fun _ => [1, 2, 3]) emptyWhole (.connect [97] :: twoReads) =
          some (wholeLast, wholeCalls) ∧
        exec (Upload.step IntBytes.littleEndian fun _ => [1, 2, 3]) emptyBlocks
            (.connect [97] (.zeros 4) :: oneBlock) = some (blocksLast, blockCalls) ∧
        wholeLast.server.files [97] = some [1, 2, 3] ∧
        blocksLast.server.files [97] = some [1, 2, 3] := by
  have wholeEnds : (exec (WholeUpload.step fun _ => [1, 2, 3]) emptyWhole
      (.connect [97] :: twoReads)).map
        (fun run => (run.1.server.pc, run.1.up.broken)) = some (.accepting, false) := by
    decide +kernel
  have blocksEnd : (exec (Upload.step IntBytes.littleEndian fun _ => [1, 2, 3]) emptyBlocks
      (.connect [97] (.zeros 4) :: oneBlock)).map
        (fun run => (run.1.server.pc, run.1.up.broken)) = some (.accepting, false) := by
    decide +kernel
  obtain ⟨⟨wholeLast, wholeCalls⟩, wholeRan, wholeOver⟩ := Option.map_eq_some_iff.mp wholeEnds
  obtain ⟨⟨blocksLast, blockCalls⟩, blocksRan, blocksOver⟩ := Option.map_eq_some_iff.mp blocksEnd
  have agree := uploads_agree IntBytes.littleEndian (fun _ => [1, 2, 3]) [97] (.zeros 4)
    emptyWhole wholeLast emptyBlocks blocksLast twoReads oneBlock wholeCalls blockCalls
    ⟨by simp, by simp⟩ (by decide) (by decide) ⟨rfl, rfl⟩
    { one := by decide
      guarded := (Machine.misses_zero_iff _ _).mp (by decide +kernel)
      ran := wholeRan
      idle := congrArg Prod.fst wholeOver
      held := congrArg Prod.snd wholeOver }
    { one := by decide
      guarded := (Machine.misses_zero_iff _ _).mp (by decide +kernel)
      ran := blocksRan
      idle := congrArg Prod.fst blocksOver
      held := congrArg Prod.snd blocksOver }
  exact ⟨wholeLast, wholeCalls, blocksLast, blockCalls, wholeRan, blocksRan, agree.1,
    agree.2.1⟩

end NetworkTest.UploadsAgree
