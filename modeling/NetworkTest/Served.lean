import NetworkTest.Channel
import NetworkTest.Machine

/-!
A server on one connection whose other end does what it likes: it sends its
stream in segments of any size, closes it at some time, and the connection may
break. `takes` says which calls of the server receive from the connection.
-/

namespace NetworkTest.Served

open Channel (Link)
open Machine (Step exec)

universe u v w x
variable {Item : Type u} {Server : Type v} {Event : Type w} {Call : Type x}

structure Session (Server : Type v) (Item : Type u) where
  server : Server
  link : Link Item

inductive Input (Event : Type w) (Item : Type u) where
  | segment (data : List Item)
  | close
  | cut (kept : Nat)
  | call (event : Event)

def Input.data : Input Event Item → List Item
  | .segment data => data
  | _ => []

def serve (step : Step Server Event Call) (takes : Link Item → Event → Option (Link Item)) :
    Step (Session Server Item) (Input Event Item) Call := fun now input =>
  match input with
  | .segment data =>
      if now.link.closed = true ∨ now.link.broken = true then none
      else some ({ now with link := now.link.send data }, [])
  | .close => some ({ now with link := now.link.close }, [])
  | .cut kept => some ({ now with link := now.link.cut kept }, [])
  | .call event =>
      match takes now.link event, step now.server event with
      | some link, some (server, made) => some ({ server := server, link := link }, made)
      | _, _ => none

variable {step : Step Server Event Call} {takes : Link Item → Event → Option (Link Item)}

inductive Turn (step : Step Server Event Call) (takes : Link Item → Event → Option (Link Item))
    (now : Session Server Item) :
    Input Event Item → Session Server Item → List Call → Prop where
  | segment (data : List Item) (going : now.link.closed = false) (held : now.link.broken = false) :
      Turn step takes now (.segment data) { now with link := now.link.send data } []
  | close : Turn step takes now .close { now with link := now.link.close } []
  | cut (kept : Nat) : Turn step takes now (.cut kept) { now with link := now.link.cut kept } []
  | call (event : Event) (server : Server) (link : Link Item) (made : List Call)
      (got : takes now.link event = some link)
      (taken : step now.server event = some (server, made)) :
      Turn step takes now (.call event) { server := server, link := link } made

theorem turn_of_step {now next : Session Server Item} {input : Input Event Item}
    {made : List Call} (taken : serve step takes now input = some (next, made)) :
    Turn step takes now input next made := by
  unfold serve at taken
  split at taken
  case h_1 data =>
      simp only [Option.ite_none_left_eq_some, not_or, Bool.not_eq_true, Option.some.injEq,
        Prod.mk.injEq] at taken
      obtain ⟨⟨going, held⟩, rfl, rfl⟩ := taken
      exact .segment data going held
  case h_2 =>
      cases taken
      exact .close
  case h_3 kept =>
      cases taken
      exact .cut kept
  case h_4 event =>
      split at taken
      case h_1 link server calls got stepped =>
          cases taken
          exact .call event server link _ got stepped
      case h_2 => contradiction

/-- The stream is what the segments carry, wherever it has been cut. -/
theorem stream_run
    (keeps : ∀ link event rest, takes link event = some rest → rest.sent = link.sent)
    {start last : Session Server Item} {inputs : List (Input Event Item)} {calls : List Call}
    (ran : exec (serve step takes) start inputs = some (last, calls)) :
    last.link.sent = start.link.sent ++ inputs.flatMap Input.data := by
  refine @Machine.exec_records _ _ _ (serve step takes) _ (fun now => now.link.sent) Input.data ?_
    start last inputs calls ran
  intro now input next made taken
  cases turn_of_step taken with
  | segment data going held => exact Link.send_sent held data
  | close => exact (List.append_nil _).symm
  | cut kept => exact (List.append_nil _).symm
  | call event server link _ got stepped =>
      exact (keeps now.link event link got).trans (List.append_nil _).symm

end NetworkTest.Served
