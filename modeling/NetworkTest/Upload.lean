import NetworkTest.FileClient
import NetworkTest.FileServer

/-!
Uploads: one server, and one client after the other, each on a connection of
its own. Client and server take their steps in any order; a connection can be
cut at any point, after which nothing more arrives at either end.
-/

namespace NetworkTest.Upload

open CBuffer (Bytes Memory)
open Directory (Files contents)
open IntBytes (Word ByteOrder)
open Channel (Link)
open Machine (Step exec Along)

structure System where
  server : FileServer.Server
  client : FileClient.Client
  up : Link UInt8
  down : Link UInt8

/-- `connect` starts a client for `name`; `memory` is what its `currbytes`
holds before anything is stored there. -/
inductive Event where
  | connect (name : Bytes) (memory : Memory 4)
  | server (event : FileServer.Event)
  | client (event : FileClient.Event)
  | cut (up down : Nat)
  deriving DecidableEq

inductive Call where
  | server (call : FileServer.Call)
  | client (call : FileClient.Call)
  deriving DecidableEq

/-- `clientFile` gives the client's file for each name. -/
def step (order : ByteOrder) (clientFile : Bytes → Bytes) : Step System Event Call :=
  fun system event =>
    match event with
    | .connect name memory =>
        match FileServer.step order system.server .accept with
        | none => none
        | some (server, made) =>
            some ({
              server := server
              client := FileClient.start name (clientFile name) memory
              up := .fresh
              down := .fresh }, made.map .server)
    | .server event =>
        if event = .accept then none
        else
          match FileServer.serve order (system.server, system.up) event with
          | none => none
          | some ((server, up), made) =>
              some ({ system with
                server := server
                up := up
                down := FileServer.transmit system.down made }, made.map .server)
    | .client event =>
        match FileClient.converse order (system.client, system.down) event with
        | none => none
        | some ((client, down), made) =>
            some ({ system with
              client := client
              down := down
              up := FileClient.transmit system.up made }, made.map .client)
    | .cut up down =>
        some ({ system with up := system.up.cut up, down := system.down.cut down }, [])

def start (files : Files Bytes UInt8) (filename : Memory (FileServer.NAMESIZE + 1))
    (totalbytes : Memory 4) : System where
  server :=
    { pc := .accepting, files := files, filename := filename, currbytes := 0,
      totalbytes := totalbytes, numtotal := 0 }
  client := { FileClient.start [] [] (.zeros 4) with pc := .finished }
  up := Link.fresh.cut 0
  down := Link.fresh.cut 0

def session (server : FileServer.Server) (name file : Bytes) (memory : Memory 4) : System where
  server := { server with pc := .recvName }
  client := FileClient.start name file memory
  up := .fresh
  down := .fresh

inductive Turn (order : ByteOrder) (clientFile : Bytes → Bytes) (system : System) :
    Event → System → List Call → Prop where
  | connected (name : Bytes) (memory : Memory 4) (idle : system.server.pc = .accepting) :
      Turn order clientFile system (.connect name memory)
        (session system.server name (clientFile name) memory) []
  | served (event : FileServer.Event) (server : FileServer.Server) (up : Link UInt8)
      (made : List FileServer.Call) (other : event ≠ .accept)
      (turn : FileServer.Turn order system.server event server made)
      (took : FileServer.takes system.up event = some up) :
      Turn order clientFile system (.server event)
        { system with
          server := server
          up := up
          down := FileServer.transmit system.down made } (made.map .server)
  | conversed (event : FileClient.Event) (client : FileClient.Client) (down : Link UInt8)
      (made : List FileClient.Call)
      (turn : FileClient.Turn order system.client event client made)
      (took : FileClient.takes system.down event = some down) :
      Turn order clientFile system (.client event)
        { system with
          client := client
          down := down
          up := FileClient.transmit system.up made } (made.map .client)
  | cut (up down : Nat) :
      Turn order clientFile system (.cut up down)
        { system with up := system.up.cut up, down := system.down.cut down } []

theorem turn_of_step {order : ByteOrder} {clientFile : Bytes → Bytes} {system next : System}
    {event : Event} {made : List Call}
    (taken : step order clientFile system event = some (next, made)) :
    Turn order clientFile system event next made := by
  unfold step at taken
  cases event with
  | connect name memory =>
      simp only at taken
      cases stepped : FileServer.step order system.server .accept with
      | none => simp [stepped] at taken
      | some pair =>
          obtain ⟨server, accepted⟩ := pair
          simp only [stepped, Option.some.injEq, Prod.mk.injEq] at taken
          obtain ⟨rfl, rfl⟩ := taken
          cases FileServer.turn_of_step stepped with
          | accepted idle => exact .connected name memory idle
  | server event =>
      simp only [Option.ite_none_left_eq_some] at taken
      obtain ⟨other, taken⟩ := taken
      cases stepped : FileServer.serve order (system.server, system.up) event with
      | none => simp [stepped] at taken
      | some pair =>
          obtain ⟨⟨server, up⟩, calls⟩ := pair
          simp only [stepped, Option.some.injEq, Prod.mk.injEq] at taken
          obtain ⟨rfl, rfl⟩ := taken
          obtain ⟨turn, took⟩ := FileServer.serve_eq_some stepped
          exact .served event server up calls other turn took
  | client event =>
      simp only at taken
      cases stepped : FileClient.converse order (system.client, system.down) event with
      | none => simp [stepped] at taken
      | some pair =>
          obtain ⟨⟨client, down⟩, calls⟩ := pair
          simp only [stepped, Option.some.injEq, Prod.mk.injEq] at taken
          obtain ⟨rfl, rfl⟩ := taken
          obtain ⟨turn, took⟩ := FileClient.converse_eq_some stepped
          exact .conversed event client down calls turn took
  | cut up down =>
      simp only [Option.some.injEq, Prod.mk.injEq] at taken
      obtain ⟨rfl, rfl⟩ := taken
      exact .cut up down

/-- Files on the server are only made and appended to. -/
theorem turn_grows {order : ByteOrder} {clientFile : Bytes → Bytes} {system next : System}
    {event : Event} {made : List Call} (turn : Turn order clientFile system event next made) :
    Directory.Grows system.server.files next.server.files := by
  cases turn with
  | connected => exact Directory.grows_refl _
  | served event server up made other turn took => exact FileServer.turn_grows turn
  | conversed => exact Directory.grows_refl _
  | cut => exact Directory.grows_refl _

end NetworkTest.Upload
