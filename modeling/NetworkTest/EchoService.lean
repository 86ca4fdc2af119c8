import NetworkTest.Projection

/-!
What an echo server is for, whatever loop, threads or descriptors it works with:
it opens connections, sends back on each what has come in on it, in order, and
closes it when nothing is left to send.
-/

namespace NetworkTest.EchoService

open Machine (Step exec)
open Projection (product mine)

universe u
variable {Byte : Type u} [DecidableEq Byte]

inductive Status where
  | unopened
  | opened
  | closed
  deriving DecidableEq

/-- `hand` has come in and has not been sent back. -/
structure Connection (Byte : Type u) where
  status : Status
  hand : List Byte
  deriving DecidableEq

inductive Act (Byte : Type u) where
  | opens
  | gets (data : List Byte)
  | sends (data : List Byte)
  | closes
  deriving DecidableEq

/-- One connection; each of its acts shows itself. -/
def serve : Step (Connection Byte) (Act Byte) (Act Byte) := fun connection act =>
  match connection.status, act with
  | .unopened, .opens => some ({ connection with status := .opened }, [act])
  | .opened, .gets data => some ({ connection with hand := connection.hand ++ data }, [act])
  | .opened, .sends data =>
      if data <+: connection.hand then
        some ({ connection with hand := connection.hand.drop data.length }, [act])
      else none
  | .opened, .closes =>
      if connection.hand = [] then some ({ connection with status := .closed }, [act]) else none
  | _, _ => none

def fresh : Connection Byte where
  status := .unopened
  hand := []

def idle : Connection Byte where
  status := .opened
  hand := []

def finished : Connection Byte where
  status := .closed
  hand := []

/-- `actions` is a run of the service that leaves its connections as in `service`. -/
def Serves (service : Nat → Connection Byte) (actions : List (Nat × Act Byte)) : Prop :=
  exec (product serve) (fun _ => fresh) actions = some (service, actions)

theorem serves_nil : Serves (fun _ => (fresh : Connection Byte)) [] := rfl

theorem serves_concat {service : Nat → Connection Byte} {actions : List (Nat × Act Byte)}
    {number : Nat} {act : Act Byte} {next : Connection Byte} (serves : Serves service actions)
    (taken : serve (service number) act = some (next, [act])) :
    Serves (Function.update service number next) (actions ++ [(number, act)]) := by
  have last : exec (product serve) service [(number, act)] =
      some (Function.update service number next, [(number, act)]) := by
    apply Machine.exec_single
    simp [product, taken]
  exact (Machine.exec_append_iff ..).mpr ⟨service, actions, _, serves, last, rfl⟩

/-! The acts of the servers, from the connection they find. -/

section Acts

variable {service : Nat → Connection Byte} {actions : List (Nat × Act Byte)} {number : Nat}

theorem serves_opens (serves : Serves service actions) (here : service number = fresh) :
    Serves (Function.update service number idle) (actions ++ [(number, .opens)]) :=
  serves_concat serves (by rw [here]; rfl)

theorem serves_gets {hand : List Byte} (serves : Serves service actions)
    (here : service number = { status := .opened, hand := hand }) (data : List Byte) :
    Serves (Function.update service number { status := .opened, hand := hand ++ data })
      (actions ++ [(number, .gets data)]) :=
  serves_concat serves (by rw [here]; rfl)

theorem serves_sends {data : List Byte} (serves : Serves service actions)
    (here : service number = { status := .opened, hand := data }) :
    Serves (Function.update service number idle) (actions ++ [(number, .sends data)]) :=
  serves_concat serves (by rw [here]; simp [serve, idle])

theorem serves_closes (serves : Serves service actions) (here : service number = idle) :
    Serves (Function.update service number finished) (actions ++ [(number, .closes)]) :=
  serves_concat serves (by rw [here]; rfl)

theorem serves_echoes (serves : Serves service actions) (here : service number = idle)
    (data : List Byte) :
    Serves service (actions ++ [(number, .gets data), (number, .sends data)]) := by
  have got := serves_gets serves here data
  have sent := serves_sends got (Function.update_self ..)
  rw [Function.update_idem, ← here, Function.update_eq_self] at sent
  rw [List.append_cons]
  exact sent

theorem serves_ends (serves : Serves service actions) (here : service number = idle) :
    Serves (Function.update service number finished)
      (actions ++ [(number, .gets []), (number, .closes)]) := by
  have got := serves_gets serves here []
  have ended := serves_closes got (Function.update_self ..)
  rw [Function.update_idem] at ended
  rw [List.append_cons]
  exact ended

end Acts

/-! The life of one connection. -/

def Act.gotten : Act Byte → List Byte
  | .gets data => data
  | _ => []

def Act.sent : Act Byte → List Byte
  | .sends data => data
  | _ => []

/-- An act between the opening and the close. -/
def Act.Moves : Act Byte → Prop
  | .gets _ => True
  | .sends _ => True
  | _ => False

/-- A connection is opened once and first, and closed at most once and last.
What was sent is what had come in, in order, but for what is in hand. -/
inductive Lived : Connection Byte → List (Act Byte) → Prop where
  | unopened : Lived fresh []
  | opened (hand : List Byte) (middle : List (Act Byte)) (moves : ∀ act ∈ middle, act.Moves)
      (echoed : middle.flatMap Act.gotten = middle.flatMap Act.sent ++ hand) :
      Lived { status := .opened, hand := hand } (.opens :: middle)
  | closed (middle : List (Act Byte)) (moves : ∀ act ∈ middle, act.Moves)
      (echoed : middle.flatMap Act.gotten = middle.flatMap Act.sent) :
      Lived finished (.opens :: middle ++ [.closes])

theorem lived_step {connection next : Connection Byte} {before made : List (Act Byte)}
    {act : Act Byte} (lived : Lived connection before)
    (taken : serve connection act = some (next, made)) : Lived next (before ++ made) := by
  cases lived with
  | unopened =>
      cases act with
      | opens =>
          cases taken
          exact .opened [] [] (by simp) rfl
      | gets data => simp [serve, fresh] at taken
      | sends data => simp [serve, fresh] at taken
      | closes => simp [serve, fresh] at taken
  | opened hand middle moves echoed =>
      cases act with
      | opens => simp [serve] at taken
      | gets data =>
          cases taken
          refine .opened (hand ++ data) (middle ++ [.gets data]) ?_ ?_
          · exact List.forall_mem_append.mpr ⟨moves, by simp [Act.Moves]⟩
          · simp [echoed, Act.gotten, Act.sent]
      | sends data =>
          simp only [serve, Option.ite_none_right_eq_some, Option.some.injEq,
            Prod.mk.injEq] at taken
          obtain ⟨⟨rest, rfl⟩, rfl, rfl⟩ := taken
          rw [List.drop_left]
          refine .opened rest (middle ++ [.sends data]) ?_ ?_
          · exact List.forall_mem_append.mpr ⟨moves, by simp [Act.Moves]⟩
          · simp [echoed, Act.gotten, Act.sent]
      | closes =>
          simp only [serve, Option.ite_none_right_eq_some, Option.some.injEq,
            Prod.mk.injEq] at taken
          obtain ⟨rfl, rfl, rfl⟩ := taken
          exact .closed middle moves (by simpa using echoed)
  | closed middle moves echoed => simp [serve, finished] at taken

theorem Serves.lived {service : Nat → Connection Byte} {actions : List (Nat × Act Byte)}
    (serves : Serves service actions) (number : Nat) :
    Lived (service number) (actions.filterMap (mine number)) := by
  refine Machine.exec_invariant (fun acts connection => Lived connection acts) ?_
    .unopened (Projection.product_projects serves number)
  intro before connection act next made lived taken
  exact lived_step lived taken

end NetworkTest.EchoService
