import NetworkTest.KernelBuffer
import NetworkTest.LedDriver
import NetworkTest.Machine

/-!
The character drivers: mydrv of thu/mydrv-copy_to_user, led_driver of thu/homework
and the driver of fri/ledok. The functions behind `read` and `write` allocate a
buffer of `count` bytes with `kmalloc`, and none looks at what that returns. A
`kmalloc` of no bytes returns a pointer that is not to be used, and `kfree` takes it
back, as it takes the null pointer.
-/

namespace NetworkTest.CharDrivers

open CBuffer (Bytes cstring)
open KernelBuffer (Access Balanced Inside Refused block)
open LedDriver (EFAULT Outcome Register Written)
open Machine (Step exec Throughout)

structure Done where
  outcome : Outcome
  accesses : List Access
  /-- What `copy_to_user` has given the caller. -/
  given : Bytes
  /-- What `printk` has printed of the buffer. -/
  printed : Bytes
  deriving DecidableEq

def letter (i : Nat) : UInt8 := .ofNat (65 + i)

/-- `kmalloc` succeeds or not, and `copy_to_user` leaves `uncopied` bytes out. The loop
fills the buffer byte by byte and so faults at the first where there is none; a
`count` for which there is one is far below 2^31, so that `i` does not overflow. -/
def mydrv_read (count : Nat) (allocated : Bool) (uncopied : Nat) : Done :=
  let k_buf := (List.range count).map letter
  if allocated = false ∧ 0 < count then
    { outcome := .fault
      accesses := block count allocated [(0, 1)] false
      given := []
      printed := [] }
  else if uncopied ≠ 0 then
    { outcome := .returned (-EFAULT)
      accesses := block count allocated [(0, count), (0, count)] false
      given := k_buf.take (count - uncopied)
      printed := [] }
  else
    { outcome := .returned 0
      accesses := block count allocated [(0, count), (0, count)] true
      given := k_buf
      printed := [] }

/-- What `%s` reads and prints of the buffer, where `behind` is the memory behind it up
to a zero byte: all up to the first zero, but of a pointer below the page size, which
is what a `kmalloc` of no bytes returns, nothing is read. -/
def scanned (user behind : Bytes) : Nat × Bytes :=
  if user = [] then (0, [60, 78, 85, 76, 76, 62])
  else ((cstring (user ++ behind)).length + 1, cstring (user ++ behind))

/-- `copy_from_user` leaves `uncopied` bytes out, whose places it fills with zeros. -/
def mydrv_write (user : Bytes) (allocated : Bool) (uncopied : Nat) (behind : Bytes) : Done :=
  let copied := (0, user.length)
  if allocated = false ∧ user ≠ [] then
    { outcome := .fault
      accesses := block user.length allocated [copied] false
      given := []
      printed := [] }
  else if uncopied ≠ 0 then
    { outcome := .returned (-EFAULT)
      accesses := block user.length allocated [copied] false
      given := []
      printed := [] }
  else
    let (count, text) := scanned user behind
    { outcome := .returned 0
      accesses := block user.length allocated [copied, (0, count)] true
      given := []
      printed := text }

inductive Led where
  | led_driver
  | ledok
  deriving DecidableEq

def led_read : Done := { outcome := .returned 0, accesses := [], given := [], printed := [] }

def kernel : LedDriver.Access → Access
  | .kmalloc count ok => .kmalloc count ok
  | .copyFromUser stored => .touch 0 stored
  | .load index => .touch index 1
  | .kfree => .kfree

def ofWritten (written : Written) : Done where
  outcome := written.outcome
  accesses := written.accesses.map kernel
  given := []
  printed := []

def led_write : Led → Register → Bool → Nat → Bytes → Written
  | .led_driver => LedDriver.led_write_mode
  | .ledok => LedDriver.led_write

inductive Call where
  | mydrv_read (count : Nat) (allocated : Bool) (uncopied : Nat)
  | mydrv_write (user : Bytes) (allocated : Bool) (uncopied : Nat) (behind : Bytes)
  | led_read (led : Led)
  | led_write (led : Led) (user : Bytes) (allocated : Bool) (uncopied : Nat)
  deriving DecidableEq

def Call.Possible : Call → Prop
  | .mydrv_read count _ uncopied => uncopied ≤ count
  | .mydrv_write user _ uncopied _ => uncopied ≤ user.length
  | .led_read _ => True
  | .led_write _ user _ uncopied => uncopied ≤ user.length

instance : (call : Call) → Decidable call.Possible
  | .mydrv_read _ _ _ => inferInstanceAs (Decidable (_ ≤ _))
  | .mydrv_write _ _ _ _ => inferInstanceAs (Decidable (_ ≤ _))
  | .led_read _ => inferInstanceAs (Decidable True)
  | .led_write _ _ _ _ => inferInstanceAs (Decidable (_ ≤ _))

def serve (gpfdat : Register) : Call → Register × Done
  | .mydrv_read count allocated uncopied => (gpfdat, mydrv_read count allocated uncopied)
  | .mydrv_write user allocated uncopied behind =>
      (gpfdat, mydrv_write user allocated uncopied behind)
  | .led_read _ => (gpfdat, led_read)
  | .led_write led user allocated uncopied =>
      let written := led_write led gpfdat allocated uncopied user
      (written.gpfdat, ofWritten written)

structure Drivers where
  gpfdat : Register
  kmallocs : Nat
  kfrees : Nat
  served : List Done
  deriving DecidableEq

def step : Step Drivers Call Empty := fun drivers call =>
  if call.Possible then
    let (gpfdat, done) := serve drivers.gpfdat call
    some ({ gpfdat := gpfdat
            kmallocs := drivers.kmallocs + KernelBuffer.kmallocs done.accesses
            kfrees := drivers.kfrees + KernelBuffer.kfrees done.accesses
            served := drivers.served ++ [done] }, [])
  else none

def loaded (gpfdat : Register) : Drivers := ⟨gpfdat, 0, 0, []⟩

/-- The call stays inside its buffer, and reports it when it gets none. -/
structure Proper (done : Done) : Prop where
  inside : Inside 0 done.accesses
  reported : Refused done.accesses → ∃ value < 0, done.outcome = .returned value

structure Sound (drivers : Drivers) : Prop where
  balanced : drivers.kmallocs = drivers.kfrees
  proper : ∀ done ∈ drivers.served, Proper done

/-- `kmalloc` succeeds, all bytes are copied, `mydrv_write` finds a zero to stop at and
`led_write` a first byte; the one of led_driver is not to be called at all. -/
def Meets : Call → Prop
  | .mydrv_read _ allocated uncopied => allocated = true ∧ uncopied = 0
  | .mydrv_write user allocated uncopied _ =>
      allocated = true ∧ uncopied = 0 ∧ (user = [] ∨ 0 ∈ user)
  | .led_read _ => True
  | .led_write .led_driver _ _ _ => False
  | .led_write .ledok user allocated uncopied => allocated = true ∧ uncopied = 0 ∧ user ≠ []

/-- A call gives its block back, and is proper. -/
def Clean (done : Done) : Prop := Balanced done.accesses ∧ Proper done

theorem clean_block_iff {done : Done} {count : Nat} {ok freed : Bool}
    {touched : List (Nat × Nat)} (made : done.accesses = block count ok touched freed) :
    Clean done ↔ ok = freed ∧
      (∀ part ∈ touched, part.2 = 0 ∨ part.1 + part.2 ≤ if ok then count else 0) ∧
        (ok = false → ∃ value < 0, done.outcome = .returned value) := by
  rw [Clean, made, KernelBuffer.balanced_block]
  apply and_congr_right
  intro _
  constructor
  · rintro ⟨inside, reported⟩
    rw [made] at inside reported
    exact ⟨(KernelBuffer.inside_block ..).mp inside,
      fun refused => reported ((KernelBuffer.refused_block ..).mpr refused)⟩
  · rintro ⟨inside, reported⟩
    refine ⟨?_, ?_⟩
    · rw [made]
      exact (KernelBuffer.inside_block ..).mpr inside
    · rw [made, KernelBuffer.refused_block]
      exact reported

theorem not_clean_touched {done : Done} {count first amount : Nat} {freed : Bool}
    {touched : List (Nat × Nat)} (made : done.accesses = block count false touched freed)
    (member : (first, amount) ∈ touched) (some : 0 < amount) : ¬ Clean done := by
  rw [clean_block_iff made]
  rintro ⟨_, fits, _⟩
  have none := fits _ member
  simp only [Bool.false_eq_true, if_false] at none
  omega

theorem not_clean_kept {done : Done} {count : Nat} {touched : List (Nat × Nat)}
    (made : done.accesses = block count true touched false) : ¬ Clean done := by
  rw [clean_block_iff made]
  rintro ⟨freed, _⟩
  cases freed

theorem clean_read_iff {count uncopied : Nat} {allocated : Bool} (possible : uncopied ≤ count) :
    Clean (mydrv_read count allocated uncopied) ↔ allocated = true ∧ uncopied = 0 := by
  cases allocated with
  | false =>
      apply iff_of_false _ (by simp)
      by_cases some : 0 < count
      · have made : (mydrv_read count false uncopied).accesses =
            block count false [(0, 1)] false := by
          simp [mydrv_read, some]
        exact not_clean_touched made (List.mem_singleton_self _) Nat.one_pos
      · -- nothing to fill and nothing to copy: the call returns 0
        obtain rfl : count = 0 := by omega
        obtain rfl : uncopied = 0 := Nat.le_zero.mp possible
        have made : (mydrv_read 0 false 0).accesses = block 0 false [(0, 0), (0, 0)] true := rfl
        rw [clean_block_iff made]
        simp
  | true =>
      by_cases copied : uncopied = 0
      · have made : (mydrv_read count true uncopied).accesses =
            block count true [(0, count), (0, count)] true := by
          simp [mydrv_read, copied]
        rw [clean_block_iff made]
        simp [copied]
      · have made : (mydrv_read count true uncopied).accesses =
            block count true [(0, count), (0, count)] false := by
          simp [mydrv_read, copied]
        exact iff_of_false (not_clean_kept made) fun met => copied met.2

theorem scanned_fits_iff (user behind : Bytes) :
    (scanned user behind).1 = 0 ∨ (scanned user behind).1 ≤ user.length ↔
      user = [] ∨ 0 ∈ user := by
  by_cases none : user = []
  · simp [scanned, none]
  · rw [scanned, if_neg none, or_iff_right none, or_iff_right (Nat.succ_ne_zero _),
      Nat.succ_le_iff]
    by_cases ends : 0 ∈ user
    · rw [CBuffer.cstring_append_of_zero ends, CBuffer.cstring_length_lt_iff]
    · have whole := CBuffer.cstring_of_nonzero
        (fun byte member => ne_of_mem_of_not_mem member ends)
      have longer := (CBuffer.cstring_prefix user behind).length_le
      rw [whole] at longer
      exact iff_of_false (Nat.not_lt_of_le longer) ends

theorem clean_write_iff {user behind : Bytes} {uncopied : Nat} {allocated : Bool}
    (possible : uncopied ≤ user.length) :
    Clean (mydrv_write user allocated uncopied behind) ↔
      allocated = true ∧ uncopied = 0 ∧ (user = [] ∨ 0 ∈ user) := by
  cases allocated with
  | false =>
      apply iff_of_false _ (by simp)
      by_cases none : user = []
      · subst none
        obtain rfl : uncopied = 0 := Nat.le_zero.mp possible
        have made : (mydrv_write [] false 0 behind).accesses =
            block 0 false [(0, 0), (0, 0)] true := rfl
        rw [clean_block_iff made]
        simp
      · have made : (mydrv_write user false uncopied behind).accesses =
            block user.length false [(0, user.length)] false := by
          simp [mydrv_write, none]
        exact not_clean_touched made (List.mem_singleton_self _) (List.length_pos_iff.mpr none)
  | true =>
      by_cases copied : uncopied = 0
      · have made : (mydrv_write user true uncopied behind).accesses =
            block user.length true [(0, user.length), (0, (scanned user behind).1)] true := by
          simp [mydrv_write, copied]
        rw [clean_block_iff made, ← scanned_fits_iff user behind]
        simp [copied]
      · have made : (mydrv_write user true uncopied behind).accesses =
            block user.length true [(0, user.length)] false := by
          simp [mydrv_write, copied]
        exact iff_of_false (not_clean_kept made) fun met => copied met.2.1

theorem clean_copied_iff (freed : Bool) {gpfdat : Register} {allocated : Bool} {uncopied : Nat}
    {user : Bytes} {display : UInt8 → Register} {last : List LedDriver.Access}
    (possible : uncopied ≤ user.length)
    (frees : last.map kernel = if freed then [.kfree] else []) :
    Clean (ofWritten (LedDriver.copied gpfdat allocated uncopied user display last)) ↔
      allocated = true ∧ uncopied = 0 ∧ user ≠ [] ∧ freed = true := by
  cases user with
  | nil =>
      -- the look at the first byte is behind the block, whether there is one or not
      obtain rfl : uncopied = 0 := Nat.le_zero.mp possible
      have made : (ofWritten (LedDriver.copied gpfdat allocated 0 [] display last)).accesses =
          block 0 allocated [(0, 0), (0, 1)] false := by
        simp [ofWritten, LedDriver.copied, kernel, block]
      rw [clean_block_iff made]
      cases allocated <;> simp
  | cons first rest =>
      cases allocated with
      | false =>
          have made : (ofWritten (LedDriver.copied gpfdat false uncopied (first :: rest) display
              last)).accesses = block (rest.length + 1) false [(0, rest.length + 1)] false := by
            simp [ofWritten, LedDriver.copied, kernel, block]
          exact iff_of_false
            (not_clean_touched made (List.mem_singleton_self _) (Nat.succ_pos _)) (by simp)
      | true =>
          by_cases copied : uncopied = 0
          · have made : (ofWritten (LedDriver.copied gpfdat true uncopied (first :: rest) display
                last)).accesses =
                block (rest.length + 1) true [(0, rest.length + 1), (0, 1)] freed := by
              simp [ofWritten, LedDriver.copied, copied, kernel, block, frees]
            rw [clean_block_iff made]
            simp [copied, eq_comm]
          · have made : (ofWritten (LedDriver.copied gpfdat true uncopied (first :: rest) display
                last)).accesses = block (rest.length + 1) true [(0, rest.length + 1)] false := by
              simp [ofWritten, LedDriver.copied, copied, kernel, block]
            exact iff_of_false (not_clean_kept made) fun met => copied met.2.1

theorem clean_led_read : Clean led_read :=
  ⟨rfl, trivial, by simp [Refused, led_read]⟩

theorem clean_serve_iff {call : Call} (possible : call.Possible) (gpfdat : Register) :
    Clean (serve gpfdat call).2 ↔ Meets call := by
  cases call with
  | mydrv_read count allocated uncopied => exact clean_read_iff possible
  | mydrv_write user allocated uncopied behind => exact clean_write_iff possible
  | led_read led => exact iff_of_true clean_led_read trivial
  | led_write led user allocated uncopied =>
      cases led with
      | led_driver =>
          apply (clean_copied_iff false possible rfl).trans
          simp [Meets]
      | ledok =>
          apply (clean_copied_iff true possible rfl).trans
          simp [Meets]

theorem sound_step_iff {drivers next : Drivers} {call : Call} {made : List Empty}
    (sound : Sound drivers) (taken : step drivers call = some (next, made)) :
    Sound next ↔ Meets call := by
  simp only [step, Option.ite_none_right_eq_some, Option.some.injEq, Prod.mk.injEq] at taken
  obtain ⟨possible, rfl, rfl⟩ := taken
  rw [← clean_serve_iff possible drivers.gpfdat]
  constructor
  · rintro ⟨balanced, proper⟩
    refine ⟨?_, proper _ (List.mem_append_right _ (List.mem_singleton_self _))⟩
    dsimp only at balanced
    rw [sound.balanced] at balanced
    exact Nat.add_left_cancel balanced
  · rintro ⟨balanced, proper⟩
    refine ⟨congrArg₂ (· + ·) sound.balanced balanced, ?_⟩
    intro done member
    rcases List.mem_append.mp member with earlier | last
    · exact sound.proper done earlier
    · rw [List.mem_singleton.mp last]
      exact proper

theorem sound_loaded (gpfdat : Register) : Sound (loaded gpfdat) :=
  ⟨rfl, by simp [loaded]⟩

/-- Over any sequence of calls the drivers stay inside their buffers, report each
`kmalloc` that fails, and have freed after each call what they allocated, just when
each call meets the condition of its function. -/
theorem buffers_sound_iff (gpfdat : Register) (calls : List Call) (last : Drivers)
    (made : List Empty) (ran : exec step (loaded gpfdat) calls = some (last, made)) :
    Throughout step Sound (loaded gpfdat) calls ↔ ∀ call ∈ calls, Meets call :=
  Machine.throughout_iff_forall (fun _ _ _ _ sound taken => sound_step_iff sound taken)
    (sound_loaded gpfdat) ran

/-- Two bytes to mydrv, of which the second is a zero, four bytes from it, and one to
the driver of fri/ledok. -/
def threeCalls : List Call :=
  [.mydrv_write [65, 0] true 0 [], .mydrv_read 4 true 0, .led_write .ledok [5] true 0]

theorem buffers_sound_threeCalls : ∃ last made,
    exec step (loaded 0) threeCalls = some (last, made) ∧
      Throughout step Sound (loaded 0) threeCalls := by
  have runs : (exec step (loaded 0) threeCalls).isSome = true := by decide
  obtain ⟨last, made, ran⟩ := Machine.exec_of_isSome runs
  exact ⟨last, made, ran,
    (buffers_sound_iff 0 threeCalls last made ran).mpr (by simp [threeCalls, Meets])⟩

/-- The driver of fri/ledok keeps its buffer when the one byte it is to copy cannot be
read. -/
theorem ledok_leaks :
    ¬ ∀ (gpfdat : Register) (calls : List Call) (last : Drivers) (made : List Empty),
      exec step (loaded gpfdat) calls = some (last, made) →
      Throughout step Sound (loaded gpfdat) calls := by
  intro all
  have shown : (exec step (loaded 0) [.led_write .ledok [5] true 1]).map
      (fun result => (result.1.kmallocs, result.1.kfrees)) = some (1, 0) := by decide
  obtain ⟨⟨last, made⟩, ran, counts⟩ := Option.map_eq_some_iff.mp shown
  have balanced := (Machine.throughout_last (all 0 _ last made ran) ran).balanced
  simp only [Prod.mk.injEq] at counts
  rw [counts.1, counts.2] at balanced
  cases balanced

end NetworkTest.CharDrivers
