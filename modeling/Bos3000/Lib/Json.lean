import Mathlib.Tactic.Common

-- Which byte sequences are JSON texts. Each function takes the bytes that are
-- left and returns the bytes after what it recognized.
namespace Json

def isSpace (c : UInt8) : Bool := c = 0x20 ∨ c = 0x09 ∨ c = 0x0A ∨ c = 0x0D

def isDigit (c : UInt8) : Bool := 0x30 ≤ c ∧ c ≤ 0x39

def isHex (c : UInt8) : Bool := isDigit c ∨ 0x61 ≤ c ∧ c ≤ 0x66 ∨ 0x41 ≤ c ∧ c ≤ 0x46

def skipSpace (cs : List UInt8) : List UInt8 := cs.dropWhile isSpace

def word (expected : List UInt8) (cs : List UInt8) : Option (List UInt8) :=
  if expected.isPrefixOf cs then some (cs.drop expected.length) else none

-- The bytes that may follow a backslash, other than u.
def escapes : List UInt8 := [0x22, 0x5C, 0x2F, 0x62, 0x66, 0x6E, 0x72, 0x74]

-- The rest of a string, after its opening quote.
def stringRest : List UInt8 → Option (List UInt8)
  | 0x22 :: rest => some rest
  | 0x5C :: 0x75 :: a :: b :: c :: d :: rest =>
      if [a, b, c, d].all isHex then stringRest rest else none
  | 0x5C :: c :: rest => if c ∈ escapes then stringRest rest else none
  | c :: rest => if c < 0x20 then none else stringRest rest
  | [] => none

def digits (cs : List UInt8) : Option (List UInt8) :=
  match cs with
  | c :: _ => if isDigit c then some (cs.dropWhile isDigit) else none
  | [] => none

def fraction (cs : List UInt8) : Option (List UInt8) :=
  match cs with
  | 0x2E :: rest => digits rest
  | _ => some cs

def exponent (cs : List UInt8) : Option (List UInt8) :=
  match cs with
  | c :: rest =>
      if c = 0x65 ∨ c = 0x45 then
        match rest with
        | 0x2B :: rest | 0x2D :: rest => digits rest
        | _ => digits rest
      else some cs
  | [] => some cs

def number (cs : List UInt8) : Option (List UInt8) :=
  let integer := match cs with
    | 0x2D :: rest => rest
    | _ => cs
  let afterInteger := match integer with
    | 0x30 :: rest => some rest
    | _ => digits integer
  afterInteger.bind fun rest => (fraction rest).bind exponent

-- Each level of nesting takes one unit of fuel, and each element one more.
mutual

def value : Nat → List UInt8 → Option (List UInt8)
  | 0, _ => none
  | fuel + 1, cs =>
      match skipSpace cs with
      | 0x7B :: rest =>
          match skipSpace rest with
          | 0x7D :: rest => some rest
          | rest => members fuel rest
      | 0x5B :: rest =>
          match skipSpace rest with
          | 0x5D :: rest => some rest
          | rest => elements fuel rest
      | 0x22 :: rest => stringRest rest
      | 0x74 :: rest => word [0x72, 0x75, 0x65] rest
      | 0x66 :: rest => word [0x61, 0x6C, 0x73, 0x65] rest
      | 0x6E :: rest => word [0x75, 0x6C, 0x6C] rest
      | rest => number rest

def elements : Nat → List UInt8 → Option (List UInt8)
  | 0, _ => none
  | fuel + 1, cs =>
      (value fuel cs).bind fun rest =>
        match skipSpace rest with
        | 0x2C :: rest => elements fuel rest
        | 0x5D :: rest => some rest
        | _ => none

def members : Nat → List UInt8 → Option (List UInt8)
  | 0, _ => none
  | fuel + 1, cs =>
      match skipSpace cs with
      | 0x22 :: rest =>
          (stringRest rest).bind fun rest =>
            match skipSpace rest with
            | 0x3A :: rest =>
                (value fuel rest).bind fun rest =>
                  match skipSpace rest with
                  | 0x2C :: rest => members fuel rest
                  | 0x7D :: rest => some rest
                  | _ => none
            | _ => none
      | _ => none

end

def valid (cs : List UInt8) : Bool :=
  match value (2 * cs.length + 1) cs with
  | some rest => skipSpace rest = []
  | none => false

-- An array of -2.5e3 and a string with an escape, and one with a trailing comma.
example : valid [0x5B, 0x2D, 0x32, 0x2E, 0x35, 0x65, 0x33, 0x2C, 0x20, 0x22, 0x5C, 0x6E, 0x22, 0x5D] = true := by decide

example : valid [0x5B, 0x31, 0x2C, 0x5D] = false := by decide

end Json
