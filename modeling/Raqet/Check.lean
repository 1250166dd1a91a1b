import Mathlib.Tactic.SplitIfs
import Raqet.Java.Int

/-!
# Exceptions and argument checks

The exceptions thrown by the modelled code, and the checks of arguments
(`ArgumentChecker`) with their messages.
-/

namespace Raqet

open Java

/-- The exceptions thrown by the modelled code. A message is none where it is not
    given by the code. -/
inductive Exn
  /-- `IOException`, of a file operation. -/
  | io
  /-- `EOFException`, of `readFully`. -/
  | eof
  /-- `IndexOutOfBoundsException`. -/
  | indexOutOfBounds (message : Option String)
  /-- `IllegalArgumentException`. -/
  | illegalArgument (message : String)
  /-- `IllegalStateException`. -/
  | illegalState (message : String)
  /-- `NegativeArraySizeException`. -/
  | negativeArraySize
  /-- `ArithmeticException`, of a division by zero. -/
  | arithmetic
  /-- `NullPointerException`. -/
  | nullPointer
  /-- `NullPointerException`, of a check. -/
  | nullPointerMessage (message : String)
  /-- `IScsiException`. -/
  | iScsi (message : String)
  /-- `Exception`. -/
  | exception (message : String)
  /-- `IOException`, with a message. -/
  | ioMessage (message : String)
  /-- `IOException`, wrapping another exception. -/
  | wrapped (cause : Exn)
  /-- `IOException`, with a message and wrapping another exception. -/
  | wrappedMessage (message : String) (cause : Exn)
  deriving DecidableEq

/-- The exceptions that are `IOException`s. -/
def Exn.IsIOException : Exn → Prop
  | .io => True
  | .eof => True
  | .ioMessage _ => True
  | .wrapped _ => True
  | .wrappedMessage _ _ => True
  | _ => False

/-- The message about an argument that is negative. -/
def negativeMessage (name : String) (arg : ℤ) : String :=
  name ++ " cannot be negative (" ++ toString arg ++ ")"

/-- The message about an argument that is not an index. -/
def indexMessage (name : String) (arg : ℤ) : String :=
  name ++ " cannot be negative or larger than size-1 (" ++ toString arg ++ ")"

/-- `argNotNegative(name, arg)`. -/
def argNotNegative (name : String) (arg : ℤ) : Except Exn ℤ :=
  if arg < 0 then .error (.illegalArgument (negativeMessage name arg)) else .ok arg

/-- `argNotNull(name, arg)`. -/
def argNotNull {α : Type} (name : String) : Option α → Except Exn α
  | none => .error (.nullPointerMessage (name ++ " cannot be null"))
  | some arg => .ok arg

/-- `argNotNullAndNotEmpty(name, arg)`, for an argument that is not null. -/
def argNotEmpty (name arg : String) : Except Exn String :=
  if arg = "" then .error (.illegalArgument (name ++ " cannot be empty")) else .ok arg

/-- `argIndex(name, arg, size)`. -/
def argIndex (name : String) (arg size : ℤ) : Except Exn ℤ :=
  if arg < 0 ∨ size ≤ arg then .error (.indexOutOfBounds (some (indexMessage name arg)))
  else .ok arg

/-- `argIndexRange(offsetName, argOffset, lengthName, argLength, size)`. The first
    test of the source, on the sign of a disjunction of bits, is the test of the signs. -/
def argIndexRange (offsetName : String) (argOffset : ℤ) (lengthName : String)
    (argLength size : ℤ) : Except Exn ℤ :=
  let argEnd := toInt (argOffset + argLength)
  if 0 ≤ argOffset ∧ 0 ≤ argLength ∧ 0 ≤ argEnd ∧ 0 ≤ toInt (size - argEnd) then .ok argOffset
  else if argOffset < 0 ∨ size < argOffset then
    .error (.indexOutOfBounds (some
      (offsetName ++ " cannot be negative or larger than size (" ++ toString argOffset ++ ")")))
  else if argLength < 0 then
    .error (.indexOutOfBounds (some (negativeMessage lengthName argLength)))
  else
    .error (.indexOutOfBounds (some (lengthName ++ " cannot be larger than size-" ++ offsetName ++
      " (" ++ toString argLength ++ ")")))

/-- A computation in sequence succeeds if both of its parts do. -/
theorem bind_eq_ok {α β : Type} {x : Except Exn α} {f : α → Except Exn β} {b : β} :
    (x >>= f) = .ok b ↔ ∃ a, x = .ok a ∧ f a = .ok b := by
  cases x with
  | error e => simp [bind, Except.bind]
  | ok a => simp [bind, Except.bind]

theorem map_eq_ok {α β : Type} {x : Except Exn α} {f : α → β} {b : β} :
    x.map f = .ok b ↔ ∃ a, x = .ok a ∧ f a = b := by
  cases x with
  | error e => simp [Except.map]
  | ok a => simp [Except.map]

theorem toOption_eq_some {α : Type} {x : Except Exn α} {a : α} :
    x.toOption = some a ↔ x = .ok a := by
  cases x <;> simp [Except.toOption]

theorem isOk_iff {α : Type} {x : Except Exn α} : x.isOk = true ↔ ∃ a, x = .ok a := by
  cases x with
  | error e => simp [Except.isOk, Except.toBool]
  | ok a => simp [Except.isOk, Except.toBool]

variable {name name' : String} {arg size n a : ℤ}

theorem argNotNegative_eq_ok : argNotNegative name arg = .ok a ↔ 0 ≤ arg ∧ arg = a := by
  rw [argNotNegative]
  split_ifs with h
  · simp [Int.not_le.2 h]
  · rw [Except.ok.injEq, iff_and_self]
    exact fun _ => Int.not_lt.1 h

theorem argIndex_eq_ok : argIndex name arg size = .ok a ↔ (0 ≤ arg ∧ arg < size) ∧ arg = a := by
  rw [argIndex]
  split_ifs with h
  · simp only [false_iff]
    omega
  · rw [Except.ok.injEq, iff_and_self]
    intro _
    omega

theorem argNotNegative_ok (h : 0 ≤ arg) : argNotNegative name arg = .ok arg :=
  if_neg (Int.not_lt.2 h)

/-- A range within the bounds passes, if these are an `int`. -/
theorem argIndexRange_ok (harg : 0 ≤ arg) (hn : 0 ≤ n) (hle : arg + n ≤ size)
    (hs : size < 2 ^ 31) : argIndexRange name arg name' n size = .ok arg := by
  have hend : toInt (arg + n) = arg + n := toInt_eq_self (by omega) (by omega)
  have hrest : toInt (size - (arg + n)) = size - (arg + n) := toInt_eq_self (by omega) (by omega)
  rw [argIndexRange]
  simp only [hend, hrest]
  exact if_pos (by omega)

theorem argIndexRange_eq_ok (harg : arg < 2 ^ 31) (hn : n < 2 ^ 31) (hsize : 0 ≤ size)
    (hs : size < 2 ^ 31) (h : argIndexRange name arg name' n size = .ok a) :
    0 ≤ arg ∧ 0 ≤ n ∧ arg + n ≤ size := by
  rw [argIndexRange] at h
  split_ifs at h with hok
  obtain ⟨h₁, h₂, h₃, h₄⟩ := hok
  refine ⟨h₁, h₂, ?_⟩
  rcases toInt_eq_or_le (x := arg + n) (by omega) with ⟨_, heq⟩ | ⟨_, hle⟩
  · rw [heq, toInt_eq_self (by omega) (by omega)] at h₄
    omega
  · omega

end Raqet
