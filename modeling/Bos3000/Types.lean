import Mathlib.Tactic.Common

namespace Bos3000

-- types.Money: an int64 amount in fen. Go's int64 operations wrap around, and
-- its division truncates towards zero, as `Int64`'s do.
abbrev Money := Int64

abbrev UserID := Int64

-- types.CeilDiv
def ceilDiv (a b : Int64) : Int64 := (a + b - 1) / b

-- errs.Code and errs.Error, as far as the services use them.
inductive ErrCode
  | Unknown | InvalidArgument | NotFound | PermissionDenied | ResourceExhausted | Internal
  | FailedPrecondition | Unavailable | Unauthenticated | AlreadyExists
  deriving DecidableEq, Repr

structure APIError where
  code : ErrCode
  message : String
  deriving DecidableEq, Repr

-- auth.AuthData without the user name, which no service reads.
structure AuthData where
  userID : UserID
  role : String
  deriving DecidableEq, Repr

-- Who sends the admin requests of the sample runs.
def operator : Option AuthData := some ⟨1, "admin"⟩

-- An instant in nanoseconds, and time.Duration, an int64 count of nanoseconds.
abbrev Time := Int

abbrev Duration := Int64

-- time.Second
def second : Duration := 1000000000

-- time.Time.Sub, which saturates at the bounds of Duration.
def Time.sub (t u : Time) : Duration :=
  Int64.ofInt (max (-9223372036854775808) (min 9223372036854775807 (t - u)))

-- time.Duration.Milliseconds
def milliseconds (d : Duration) : Int64 := d / 1000000

-- int64(d.Seconds()). The detour over float64 changes nothing for durations of
-- whole milliseconds, nor for any duration below 2^22 seconds.
def seconds (d : Duration) : Int64 := d / 1000000000

-- strconv.Atoi, and strconv.ParseInt in base 10 with 64 bits: an optional sign
-- and at least one digit, within the range of int64.
def parseInt (s : String) : Option Int :=
  let digits (cs : List Char) : Option Int :=
    if cs ≠ [] ∧ cs.all Char.isDigit then
      some (cs.foldl (fun n c => 10 * n + (c.toNat - '0'.toNat : Nat)) (0 : Int))
    else none
  let value := match s.toList with
    | '-' :: rest => (digits rest).map fun n => -n
    | '+' :: rest => digits rest
    | cs => digits cs
  value.filter fun n => -9223372036854775808 ≤ n ∧ n ≤ 9223372036854775807

example : parseInt "3600" = some 3600 := by decide

-- A string stored in a VARCHAR(n) column: the excess over n characters is cut
-- off where it is only spaces, and refused otherwise. PostgreSQL keeps no NUL.
def varchar (n : Nat) (s : String) : Option String :=
  if '\x00' ∈ s.toList then none
  else if s.length ≤ n then some s
  else if (s.toList.drop n).all (· = ' ') then some (String.ofList (s.toList.take n))
  else none

end Bos3000
