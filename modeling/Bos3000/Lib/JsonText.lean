import Mathlib.Data.List.TakeWhile
import Mathlib.Tactic.IntervalCases

-- JSON texts as encoding/json writes and reads them. A text is its characters,
-- and a reader takes what is left of it and returns what is left after it.
namespace JsonText

abbrev Text := List Char

def isSpace (c : Char) : Bool := c = ' ' ∨ c = '\t' ∨ c = '\n' ∨ c = '\r'

def skipSpace (cs : Text) : Text := cs.dropWhile isSpace

def isHex (c : Char) : Bool := c.isDigit ∨ 'a' ≤ c ∧ c ≤ 'f' ∨ 'A' ≤ c ∧ c ≤ 'F'

def hexDigit (n : Nat) : Char :=
  ['0', '1', '2', '3', '4', '5', '6', '7', '8', '9', 'a', 'b', 'c', 'd', 'e', 'f'].getD n '0'

def unicodeEscape (c : Char) : Text :=
  ['\\', 'u', hexDigit (c.toNat / 4096 % 16), hexDigit (c.toNat / 256 % 16), hexDigit (c.toNat / 16 % 16),
   hexDigit (c.toNat % 16)]

-- The characters that json.Marshal escapes for HTML and for JavaScript.
def escapesHTML (c : Char) : Bool := c ∈ ['<', '>', '&', '\u2028', '\u2029']

-- The characters that may follow a backslash, other than u.
def escapes : Text := ['"', '\\', '/', 'b', 'f', 'n', 'r', 't']

section Copy

def copyChar (c : Char) : Text := if escapesHTML c then unicodeEscape c else [c]

def before (out : Text) (result : Text × Text) : Text × Text := (out ++ result.1, result.2)

-- A string after its opening quote, as a compact text has it, with its closing quote.
def copyString : Text → Option (Text × Text)
  | '"' :: rest => some (['"'], rest)
  | '\\' :: 'u' :: a :: b :: c :: d :: rest =>
      if [a, b, c, d].all isHex then (copyString rest).map (before ['\\', 'u', a, b, c, d]) else none
  | '\\' :: c :: rest => if c ∈ escapes then (copyString rest).map (before ['\\', c]) else none
  | c :: rest => if c < ' ' then none else (copyString rest).map (before (copyChar c))
  | [] => none

def isExponent : Text → Bool
  | [] => true
  | c :: rest => (c = 'e' ∨ c = 'E') &&
      (match rest with
      | '+' :: digits | '-' :: digits => digits ≠ [] && digits.all Char.isDigit
      | digits => digits ≠ [] && digits.all Char.isDigit)

def isFraction : Text → Bool
  | '.' :: rest => rest.takeWhile Char.isDigit ≠ [] && isExponent (rest.dropWhile Char.isDigit)
  | rest => isExponent rest

def isUnsigned (cs : Text) : Bool :=
  match cs with
  | '0' :: rest => isFraction rest
  | _ => cs.takeWhile Char.isDigit ≠ [] && isFraction (cs.dropWhile Char.isDigit)

def isNumber : Text → Bool
  | '-' :: rest => isUnsigned rest
  | cs => isUnsigned cs

def isLiteral (token : Text) : Bool :=
  token = ['t', 'r', 'u', 'e'] ∨ token = ['f', 'a', 'l', 's', 'e'] ∨ token = ['n', 'u', 'l', 'l'] ∨ isNumber token

-- The characters of numbers, true, false and null.
def isLiteralChar (c : Char) : Bool := c.isDigit ∨ c.isLower ∨ c ∈ ['E', '+', '-', '.']

def copyLiteral (cs : Text) : Option (Text × Text) :=
  if isLiteral (cs.takeWhile isLiteralChar) then some (cs.takeWhile isLiteralChar, cs.dropWhile isLiteralChar)
  else none

-- A value as a compact text has it. Each level of nesting takes one unit of
-- fuel, and each element one more: never more than a text has characters.
mutual

def copyValue : Nat → Text → Option (Text × Text)
  | 0, _ => none
  | n + 1, cs =>
      match skipSpace cs with
      | '{' :: rest =>
          match skipSpace rest with
          | '}' :: rest => some (['{', '}'], rest)
          | rest => (copyMembers n rest).map (before ['{'])
      | '[' :: rest =>
          match skipSpace rest with
          | ']' :: rest => some (['[', ']'], rest)
          | rest => (copyElements n rest).map (before ['['])
      | '"' :: rest => (copyString rest).map (before ['"'])
      | rest => copyLiteral rest

def copyElements : Nat → Text → Option (Text × Text)
  | 0, _ => none
  | n + 1, cs =>
      (copyValue n cs).bind fun (value, rest) =>
        match skipSpace rest with
        | ',' :: rest => (copyElements n rest).map (before (value ++ [',']))
        | ']' :: rest => some (value ++ [']'], rest)
        | _ => none

def copyMembers : Nat → Text → Option (Text × Text)
  | 0, _ => none
  | n + 1, cs =>
      match skipSpace cs with
      | '"' :: rest =>
          (copyString rest).bind fun (name, rest) =>
            match skipSpace rest with
            | ':' :: rest =>
                (copyValue n rest).bind fun (value, rest) =>
                  match skipSpace rest with
                  | ',' :: rest => (copyMembers n rest).map (before ('"' :: name ++ ':' :: value ++ [',']))
                  | '}' :: rest => some ('"' :: name ++ ':' :: value ++ ['}'], rest)
                  | _ => none
            | _ => none
      | _ => none

end

-- json.Compact with the escapes of json.Marshal, which fails on a text that is not JSON.
def compact (text : Text) : Option Text :=
  match copyValue text.length text with
  | some (out, rest) => if skipSpace rest = [] then some out else none
  | none => none

end Copy

section Idempotence

-- A text that does not go on with a literal that comes before it.
def Follows (tail : Text) : Prop := ∀ c rest, tail = c :: rest → isLiteralChar c = false

theorem follows_cons {c : Char} (hc : isLiteralChar c = false) (rest : Text) : Follows (c :: rest) := by
  rintro _ _ heq
  cases heq
  exact hc

theorem skipSpace_cons {c : Char} (hc : isSpace c = false) (rest : Text) :
    skipSpace (c :: rest) = c :: rest := by
  simp [skipSpace, hc]

theorem before_eq_some {out : Text} {result : Option (Text × Text)} {written rest : Text}
    (h : result.map (before out) = some (written, rest)) :
    ∃ more, result = some (more, rest) ∧ written = out ++ more := by
  obtain ⟨⟨more, _⟩, hmore, heq⟩ := Option.map_eq_some_iff.mp h
  cases heq
  exact ⟨more, hmore, rfl⟩

theorem copyString_char {c : Char} (hquote : c ≠ '"') (hslash : c ≠ '\\') (rest : Text) :
    copyString (c :: rest) = if c < ' ' then none else (copyString rest).map (before (copyChar c)) := by
  rw [copyString]
  · exact hquote
  · rintro _ _ _ _ _ heq _
    exact hslash heq
  · rintro _ _ heq _
    exact hslash heq

theorem isHex_hexDigit (n : Nat) : isHex (hexDigit (n % 16)) = true := by
  have hn : n % 16 < 16 := Nat.mod_lt _ (by decide)
  generalize n % 16 = m at hn
  revert m
  decide

theorem copyString_unicodeEscape (c : Char) (rest : Text) :
    copyString (unicodeEscape c ++ rest) = (copyString rest).map (before (unicodeEscape c)) := by
  have hhex : (([hexDigit (c.toNat / 4096 % 16), hexDigit (c.toNat / 256 % 16), hexDigit (c.toNat / 16 % 16),
      hexDigit (c.toNat % 16)] : Text).all isHex) = true := by
    simp [isHex_hexDigit]
  simp only [unicodeEscape, List.cons_append, List.nil_append, copyString]
  rw [if_pos hhex]

-- A compact string is copied as it stands.
theorem copyString_copy {cs out left : Text} (h : copyString cs = some (out, left)) (tail : Text) :
    copyString (out ++ tail) = some (out, tail) := by
  induction cs using copyString.induct generalizing out left with
  | case1 rest =>
      cases h
      rfl
  | case2 a b c d rest hhex ih =>
      rw [copyString, if_pos hhex] at h
      obtain ⟨more, hmore, rfl⟩ := before_eq_some h
      have hrest := ih hmore
      simp only [List.cons_append, List.nil_append, copyString]
      rw [if_pos hhex, hrest]
      rfl
  | case3 a b c d rest hhex =>
      rw [copyString, if_neg hhex] at h
      cases h
  | case4 c rest hnot hescape ih =>
      rw [copyString.eq_3 c rest hnot, if_pos hescape] at h
      obtain ⟨more, hmore, rfl⟩ := before_eq_some h
      have hrest := ih hmore
      have hu : c ≠ 'u' := by
        rintro rfl
        revert hescape
        decide
      simp only [List.cons_append, List.nil_append]
      rw [copyString.eq_3 c _ (by simp [hu]), if_pos hescape, hrest]
      rfl
  | case5 c rest hnot hescape =>
      rw [copyString.eq_3 c rest hnot, if_neg hescape] at h
      cases h
  | case6 c rest hquote hunicode hslash hcontrol =>
      rw [copyString.eq_4 c rest hquote hunicode hslash, if_pos hcontrol] at h
      cases h
  | case7 c rest hquote hunicode hslash hcontrol ih =>
      rw [copyString.eq_4 c rest hquote hunicode hslash, if_neg hcontrol] at h
      obtain ⟨more, hmore, rfl⟩ := before_eq_some h
      have hrest := ih hmore
      have hne : c ≠ '\\' := by
        intro heq
        cases rest with
        | nil => cases hmore
        | cons next rest => exact hslash next rest heq rfl
      rw [List.append_assoc]
      unfold copyChar
      by_cases hhtml : escapesHTML c = true
      · rw [if_pos hhtml, copyString_unicodeEscape, hrest]
        rfl
      · rw [if_neg hhtml, List.singleton_append, copyString_char hquote hne, if_neg hcontrol, hrest]
        simp [copyChar, hhtml, before]
  | case8 => cases h

theorem isLiteralChar_ne {c d : Char} (hc : isLiteralChar c = true) (hd : isLiteralChar d = false) : c ≠ d := by
  rintro rfl
  rw [hc] at hd
  cases hd

theorem isSpace_of_isLiteralChar {c : Char} (hc : isLiteralChar c = true) : isSpace c = false := by
  have hblank := isLiteralChar_ne hc (d := ' ') (by decide)
  have htab := isLiteralChar_ne hc (d := '\t') (by decide)
  have hline := isLiteralChar_ne hc (d := '\n') (by decide)
  have hreturn := isLiteralChar_ne hc (d := '\r') (by decide)
  simp [isSpace, hblank, htab, hline, hreturn]

theorem copyLiteral_token {token tail : Text} (htoken : ∀ c ∈ token, isLiteralChar c = true)
    (hliteral : isLiteral token = true) (htail : Follows tail) :
    copyLiteral (token ++ tail) = some (token, tail) := by
  have hstop : tail.takeWhile isLiteralChar = [] ∧ tail.dropWhile isLiteralChar = tail := by
    cases tail with
    | nil => exact ⟨rfl, rfl⟩
    | cons c rest => simp [htail c rest rfl]
  unfold copyLiteral
  rw [List.takeWhile_append_of_pos htoken, List.dropWhile_append_of_pos htoken, hstop.1, hstop.2,
    List.append_nil, if_pos hliteral]

-- The first character of a value in a compact text.
def Opens (c : Char) : Prop := c = '{' ∨ c = '[' ∨ c = '"' ∨ isLiteralChar c = true

theorem Opens.isSpace {c : Char} (h : Opens c) : isSpace c = false := by
  obtain rfl | rfl | rfl | hc := h
  · rfl
  · rfl
  · rfl
  · exact isSpace_of_isLiteralChar hc

theorem copyLiteral_copy {cs out left : Text} (h : copyLiteral cs = some (out, left)) :
    (∃ c more, out = c :: more ∧ isLiteralChar c = true) ∧
      ∀ tail, Follows tail → copyLiteral (out ++ tail) = some (out, tail) := by
  unfold copyLiteral at h
  split at h
  · rename_i hliteral
    cases h
    have htoken : ∀ c ∈ cs.takeWhile isLiteralChar, isLiteralChar c = true :=
      List.all_eq_true.mp List.all_takeWhile
    refine ⟨?_, fun tail => copyLiteral_token htoken hliteral⟩
    cases hout : cs.takeWhile isLiteralChar with
    | nil =>
        rw [hout] at hliteral
        cases hliteral
    | cons c more => exact ⟨c, more, rfl, htoken c (by simp [hout])⟩
  · cases h

theorem copyValue_literal {c : Char} (hc : isLiteralChar c = true) (n : Nat) (rest : Text) :
    copyValue (n + 1) (c :: rest) = copyLiteral (c :: rest) := by
  have hbrace := isLiteralChar_ne hc (d := '{') (by decide)
  have hbracket := isLiteralChar_ne hc (d := '[') (by decide)
  have hquote := isLiteralChar_ne hc (d := '"') (by decide)
  rw [copyValue, skipSpace_cons (isSpace_of_isLiteralChar hc)]
  split <;> simp_all

-- What was copied with this much fuel is copied as it stands, with as much fuel
-- as it has characters.
structure Stable (n : Nat) : Prop where
  value : ∀ {cs out left}, copyValue n cs = some (out, left) →
    (∃ c more, out = c :: more ∧ Opens c) ∧
      ∀ m, out.length ≤ m → ∀ tail, Follows tail → copyValue m (out ++ tail) = some (out, tail)
  elements : ∀ {cs out left}, copyElements n cs = some (out, left) →
    (∃ c more, out = c :: more ∧ Opens c) ∧
      ∀ m, out.length ≤ m → ∀ tail, copyElements m (out ++ tail) = some (out, tail)
  members : ∀ {cs out left}, copyMembers n cs = some (out, left) →
    (∃ more, out = '"' :: more) ∧
      ∀ m, out.length ≤ m → ∀ tail, copyMembers m (out ++ tail) = some (out, tail)

theorem stable_zero : Stable 0 where
  value h := by cases h
  elements h := by cases h
  members h := by cases h

theorem Stable.succ_elements {n : Nat} (h : Stable n) {cs out left : Text}
    (hcopy : copyElements (n + 1) cs = some (out, left)) :
    (∃ c more, out = c :: more ∧ Opens c) ∧
      ∀ m, out.length ≤ m → ∀ tail, copyElements m (out ++ tail) = some (out, tail) := by
  rw [copyElements] at hcopy
  obtain ⟨⟨value, rest⟩, hvalue, hcopy⟩ := Option.bind_eq_some_iff.mp hcopy
  obtain ⟨⟨c, more, rfl, hopens⟩, hstable⟩ := h.value hvalue
  simp only at hcopy
  split at hcopy
  · rename_i rest' hskip
    obtain ⟨others, hothers, rfl⟩ := before_eq_some hcopy
    refine ⟨⟨c, _, rfl, hopens⟩, fun m hm tail => ?_⟩
    obtain ⟨m, rfl⟩ : ∃ k, m = k + 1 := ⟨m - 1, by grind⟩
    have hfirst := hstable m (by grind) (',' :: (others ++ tail)) (follows_cons (by decide) _)
    have hrest := (h.elements hothers).2 m (by grind) tail
    have heq : ((c :: more) ++ [','] ++ others) ++ tail = (c :: more) ++ ',' :: (others ++ tail) := by simp
    rw [heq, copyElements, hfirst, Option.bind_some]
    simp only [skipSpace_cons (show isSpace ',' = false by decide), hrest, Option.map_some, before]
  · cases hcopy
    refine ⟨⟨c, _, rfl, hopens⟩, fun m hm tail => ?_⟩
    obtain ⟨m, rfl⟩ : ∃ k, m = k + 1 := ⟨m - 1, by grind⟩
    have hfirst := hstable m (by grind) (']' :: tail) (follows_cons (by decide) _)
    have heq : ((c :: more) ++ [']']) ++ tail = (c :: more) ++ ']' :: tail := by simp
    rw [heq, copyElements, hfirst, Option.bind_some]
    simp only [skipSpace_cons (show isSpace ']' = false by decide)]
  · cases hcopy

theorem Stable.succ_members {n : Nat} (h : Stable n) {cs out left : Text}
    (hcopy : copyMembers (n + 1) cs = some (out, left)) :
    (∃ more, out = '"' :: more) ∧
      ∀ m, out.length ≤ m → ∀ tail, copyMembers m (out ++ tail) = some (out, tail) := by
  rw [copyMembers] at hcopy
  split at hcopy
  · obtain ⟨⟨name, rest⟩, hname, hcopy⟩ := Option.bind_eq_some_iff.mp hcopy
    simp only at hcopy
    split at hcopy
    · obtain ⟨⟨value, rest⟩, hvalue, hcopy⟩ := Option.bind_eq_some_iff.mp hcopy
      obtain ⟨_, hstable⟩ := h.value hvalue
      simp only at hcopy
      split at hcopy
      · obtain ⟨others, hothers, rfl⟩ := before_eq_some hcopy
        refine ⟨⟨_, rfl⟩, fun m hm tail => ?_⟩
        obtain ⟨m, rfl⟩ : ∃ k, m = k + 1 := ⟨m - 1, by grind⟩
        have hstring := copyString_copy hname (':' :: (value ++ ',' :: (others ++ tail)))
        have hfirst := hstable m (by grind) (',' :: (others ++ tail)) (follows_cons (by decide) _)
        have hrest := (h.members hothers).2 m (by grind) tail
        have heq : ('"' :: name ++ ':' :: value ++ [',']) ++ others ++ tail =
            '"' :: (name ++ ':' :: (value ++ ',' :: (others ++ tail))) := by simp
        rw [heq, copyMembers]
        simp only [skipSpace_cons (show isSpace '"' = false by decide), hstring, Option.bind_some,
          skipSpace_cons (show isSpace ':' = false by decide), hfirst,
          skipSpace_cons (show isSpace ',' = false by decide), hrest, Option.map_some, before]
      · cases hcopy
        refine ⟨⟨_, rfl⟩, fun m hm tail => ?_⟩
        obtain ⟨m, rfl⟩ : ∃ k, m = k + 1 := ⟨m - 1, by grind⟩
        have hstring := copyString_copy hname (':' :: (value ++ '}' :: tail))
        have hfirst := hstable m (by grind) ('}' :: tail) (follows_cons (by decide) _)
        have heq : ('"' :: name ++ ':' :: value ++ ['}']) ++ tail =
            '"' :: (name ++ ':' :: (value ++ '}' :: tail)) := by simp
        rw [heq, copyMembers]
        simp only [skipSpace_cons (show isSpace '"' = false by decide), hstring, Option.bind_some,
          skipSpace_cons (show isSpace ':' = false by decide), hfirst,
          skipSpace_cons (show isSpace '}' = false by decide)]
      · cases hcopy
    · cases hcopy
  · cases hcopy

theorem Opens.ne {c : Char} (h : Opens c) : c ≠ ']' ∧ c ≠ '}' := by
  constructor <;>
  · rintro rfl
    revert h
    unfold Opens
    decide

theorem Stable.succ_value {n : Nat} (h : Stable n) {cs out left : Text}
    (hcopy : copyValue (n + 1) cs = some (out, left)) :
    (∃ c more, out = c :: more ∧ Opens c) ∧
      ∀ m, out.length ≤ m → ∀ tail, Follows tail → copyValue m (out ++ tail) = some (out, tail) := by
  rw [copyValue] at hcopy
  split at hcopy
  · split at hcopy
    · cases hcopy
      refine ⟨⟨'{', _, rfl, .inl rfl⟩, fun m hm tail _ => ?_⟩
      obtain ⟨m, rfl⟩ : ∃ k, m = k + 1 := ⟨m - 1, by grind⟩
      rfl
    · obtain ⟨more, hmore, rfl⟩ := before_eq_some hcopy
      refine ⟨⟨'{', _, rfl, .inl rfl⟩, fun m hm tail _ => ?_⟩
      obtain ⟨m, rfl⟩ : ∃ k, m = k + 1 := ⟨m - 1, by grind⟩
      obtain ⟨⟨others, rfl⟩, hstable⟩ := h.members hmore
      have hmembers := hstable m (by grind) tail
      simp only [List.cons_append, List.nil_append] at hmembers ⊢
      rw [copyValue, skipSpace_cons (by decide)]
      simp only [skipSpace_cons (show isSpace '"' = false by decide)]
      split
      · rename_i heq
        simp at heq
      · simp only [hmembers, Option.map_some, before, List.cons_append, List.nil_append]
  · split at hcopy
    · cases hcopy
      refine ⟨⟨'[', _, rfl, .inr (.inl rfl)⟩, fun m hm tail _ => ?_⟩
      obtain ⟨m, rfl⟩ : ∃ k, m = k + 1 := ⟨m - 1, by grind⟩
      rfl
    · obtain ⟨more, hmore, rfl⟩ := before_eq_some hcopy
      refine ⟨⟨'[', _, rfl, .inr (.inl rfl)⟩, fun m hm tail _ => ?_⟩
      obtain ⟨m, rfl⟩ : ∃ k, m = k + 1 := ⟨m - 1, by grind⟩
      obtain ⟨⟨c, others, rfl, hopens⟩, hstable⟩ := h.elements hmore
      have helements := hstable m (by grind) tail
      simp only [List.cons_append, List.nil_append] at helements ⊢
      rw [copyValue, skipSpace_cons (by decide)]
      simp only [skipSpace_cons hopens.isSpace]
      split
      · rename_i heq
        cases heq
        exact absurd rfl hopens.ne.1
      · simp only [helements, Option.map_some, before, List.cons_append, List.nil_append]
  · obtain ⟨more, hmore, rfl⟩ := before_eq_some hcopy
    refine ⟨⟨'"', _, rfl, .inr (.inr (.inl rfl))⟩, fun m hm tail _ => ?_⟩
    obtain ⟨m, rfl⟩ : ∃ k, m = k + 1 := ⟨m - 1, by grind⟩
    have hstring := copyString_copy hmore tail
    simp only [List.cons_append, List.nil_append]
    rw [copyValue, skipSpace_cons (by decide)]
    simp only [hstring, Option.map_some, before, List.cons_append, List.nil_append]
  · obtain ⟨⟨c, more, rfl, hc⟩, hstable⟩ := copyLiteral_copy hcopy
    refine ⟨⟨c, more, rfl, .inr (.inr (.inr hc))⟩, fun m hm tail htail => ?_⟩
    obtain ⟨m, rfl⟩ : ∃ k, m = k + 1 := ⟨m - 1, by grind⟩
    rw [List.cons_append, copyValue_literal hc]
    exact hstable tail htail

theorem stable (n : Nat) : Stable n := by
  induction n with
  | zero => exact stable_zero
  | succ n ih => exact ⟨ih.succ_value, ih.succ_elements, ih.succ_members⟩

theorem copyValue_compact {text out : Text} (h : compact text = some out) :
    (∃ c more, out = c :: more ∧ Opens c) ∧
      ∀ m, out.length ≤ m → ∀ tail, Follows tail → copyValue m (out ++ tail) = some (out, tail) := by
  unfold compact at h
  split at h
  · rename_i hcopy
    split at h
    · cases h
      exact (stable _).value hcopy
    · cases h
  · cases h

end Idempotence

section Strings

def shortEscapes : List (Char × Char) :=
  [('"', '"'), ('\\', '\\'), ('\x08', 'b'), ('\x0C', 'f'), ('\n', 'n'), ('\r', 'r'), ('\t', 't')]

-- How json.Marshal writes a character of a string.
def quoteChar (c : Char) : Text :=
  match shortEscapes.find? fun escape => escape.1 = c with
  | some escape => ['\\', escape.2]
  | none => if c < ' ' ∨ escapesHTML c then unicodeEscape c else [c]

def quote (s : Text) : Text := '"' :: (s.flatMap quoteChar ++ ['"'])

-- What a string consists of: characters, and the UTF-16 code units of escapes.
inductive Piece
  | char (c : Char)
  | unit (n : Nat)

def unescape (c : Char) : Char :=
  match c with
  | 'b' => '\x08'
  | 'f' => '\x0C'
  | 'n' => '\n'
  | 'r' => '\r'
  | 't' => '\t'
  | _ => c

def hexValue (c : Char) : Nat :=
  if c.isDigit then c.toNat - '0'.toNat
  else if c.isLower then c.toNat - 'a'.toNat + 10
  else c.toNat - 'A'.toNat + 10

def pieces : Text → List Piece
  | '\\' :: 'u' :: a :: b :: c :: d :: rest =>
      .unit (4096 * hexValue a + 256 * hexValue b + 16 * hexValue c + hexValue d) :: pieces rest
  | '\\' :: c :: rest => .char (unescape c) :: pieces rest
  | c :: rest => .char c :: pieces rest
  | [] => []

def isPair (high low : Nat) : Bool := 0xD800 ≤ high ∧ high < 0xDC00 ∧ 0xDC00 ≤ low ∧ low < 0xE000

-- A code unit on its own. A surrogate stands for nothing and is replaced.
def single (n : Nat) : Char := if 0xD800 ≤ n ∧ n < 0xE000 then '\uFFFD' else Char.ofNat n

def join : List Piece → Text
  | [] => []
  | .char c :: rest => c :: join rest
  | .unit high :: .unit low :: rest =>
      if isPair high low then Char.ofNat (0x10000 + 0x400 * (high - 0xD800) + (low - 0xDC00)) :: join rest
      else single high :: join (.unit low :: rest)
  | .unit n :: rest => single n :: join rest

-- The string that a literal without its quotes stands for.
def unquote (raw : Text) : Text := join (pieces raw)

example : unquote ['a', '\\', 'u', 'd', '8', '3', 'd', '\\', 'u', 'D', 'E', '0', '0', '\\', 'n'] =
    ['a', '😀', '\n'] := by
  decide

theorem join_unit {n : Nat} (hn : n < 0xD800) (rest : List Piece) :
    join (.unit n :: rest) = Char.ofNat n :: join rest := by
  have hsingle : single n = Char.ofNat n := by
    unfold single
    rw [if_neg (by omega)]
  cases rest with
  | nil => simp [join, hsingle]
  | cons piece rest =>
      cases piece with
      | char c => simp [join, hsingle]
      | unit low =>
          have hpair : isPair n low = false := by simp [isPair]; omega
          simp [join, hpair, hsingle]

theorem hexValue_hexDigit (n : Nat) : hexValue (hexDigit (n % 16)) = n % 16 := by
  have hn : n % 16 < 16 := Nat.mod_lt _ (by decide)
  generalize n % 16 = m at hn ⊢
  revert m
  decide

theorem toNat_lt_of_escapesHTML {c : Char} (h : c < ' ' ∨ escapesHTML c = true) : c.toNat < 0xD800 := by
  rcases h with hcontrol | hhtml
  · have hlt : c.toNat < ' '.toNat := hcontrol
    have hblank : ' '.toNat = 32 := rfl
    omega
  · simp only [escapesHTML, List.mem_cons, List.not_mem_nil, or_false, decide_eq_true_eq] at hhtml
    rcases hhtml with rfl | rfl | rfl | rfl | rfl <;> decide

theorem pieces_unicodeEscape {c : Char} (hc : c.toNat < 0xD800) (rest : Text) :
    join (pieces (unicodeEscape c ++ rest)) = c :: join (pieces rest) := by
  have hvalue : 4096 * (c.toNat / 4096 % 16) + 256 * (c.toNat / 256 % 16) + 16 * (c.toNat / 16 % 16) +
      c.toNat % 16 = c.toNat := by omega
  simp only [unicodeEscape, List.cons_append, List.nil_append, pieces, hexValue_hexDigit, hvalue]
  rw [join_unit hc, Char.ofNat_toNat]

theorem pieces_char {c : Char} (hslash : c ≠ '\\') (rest : Text) : pieces (c :: rest) = .char c :: pieces rest := by
  rw [pieces]
  · rintro _ _ _ _ _ heq _
    exact hslash heq
  · rintro _ _ heq _
    exact hslash heq

theorem shortEscapes_unescape :
    ∀ escape ∈ shortEscapes, escape.2 ∈ escapes ∧ escape.2 ≠ 'u' ∧ unescape escape.2 = escape.1 := by
  decide

-- The three ways to write a character.
theorem quoteChar_cases (c : Char) :
    (∃ e, quoteChar c = ['\\', e] ∧ e ∈ escapes ∧ e ≠ 'u' ∧ unescape e = c) ∨
      quoteChar c = unicodeEscape c ∧ c.toNat < 0xD800 ∨
      quoteChar c = [c] ∧ c ≠ '"' ∧ c ≠ '\\' ∧ ¬ c < ' ' ∧ escapesHTML c = false := by
  unfold quoteChar
  cases hfind : shortEscapes.find? fun escape => escape.1 = c with
  | some escape =>
      have hc : escape.1 = c := by simpa using List.find?_some hfind
      obtain ⟨hmem, hne, hunescape⟩ := shortEscapes_unescape escape (List.mem_of_find?_eq_some hfind)
      exact .inl ⟨escape.2, rfl, hmem, hne, hunescape.trans hc⟩
  | none =>
      have hnot := List.find?_eq_none.mp hfind
      by_cases hescape : c < ' ' ∨ escapesHTML c = true
      · exact .inr (.inl ⟨by simp only [if_pos hescape], toNat_lt_of_escapesHTML hescape⟩)
      · have hquote := hnot ('"', '"') (by decide)
        have hslash := hnot ('\\', '\\') (by decide)
        simp only [decide_eq_true_eq] at hquote hslash
        have hplain := not_or.mp hescape
        exact .inr (.inr ⟨by simp only [if_neg hescape], Ne.symm hquote, Ne.symm hslash, hplain.1,
          by simpa using hplain.2⟩)

-- What is written for a character is read back as it.
theorem join_quoteChar (c : Char) (rest : Text) :
    join (pieces (quoteChar c ++ rest)) = c :: join (pieces rest) := by
  obtain ⟨e, hquote, _, hne, rfl⟩ | ⟨hquote, hc⟩ | ⟨hquote, _, hslash, _⟩ := quoteChar_cases c
  · have hpieces : pieces ('\\' :: e :: rest) = .char (unescape e) :: pieces rest := by
      rw [pieces]
      rintro _ _ _ _ _ heq _
      exact hne heq
    rw [hquote, List.cons_append, List.singleton_append, hpieces, join]
  · rw [hquote, pieces_unicodeEscape hc]
  · rw [hquote, List.singleton_append, pieces_char hslash, join]

theorem unquote_quote (s : Text) : unquote (s.flatMap quoteChar) = s := by
  induction s with
  | nil => rfl
  | cons c s ih =>
      unfold unquote at ih ⊢
      rw [List.flatMap_cons, join_quoteChar, ih]

theorem copyString_quoteChar (c : Char) (rest : Text) :
    copyString (quoteChar c ++ rest) = (copyString rest).map (before (quoteChar c)) := by
  obtain ⟨e, hquote, hescape, hne, _⟩ | ⟨hquote, _⟩ | ⟨hquote, hne, hslash, hcontrol, hhtml⟩ :=
    quoteChar_cases c
  · rw [hquote, List.cons_append, List.singleton_append, copyString.eq_3 e rest (by simp [hne]), if_pos hescape]
  · rw [hquote, copyString_unicodeEscape]
  · rw [hquote, List.singleton_append, copyString_char hne hslash, if_neg hcontrol]
    simp [copyChar, hhtml]

-- A quoted string is compact.
theorem copyString_quote (s tail : Text) :
    copyString (s.flatMap quoteChar ++ '"' :: tail) = some (s.flatMap quoteChar ++ ['"'], tail) := by
  induction s with
  | nil => rfl
  | cons c s ih => simp [List.append_assoc, copyString_quoteChar, ih, before]

theorem copyValue_quote (n : Nat) (s tail : Text) :
    copyValue (n + 1) (quote s ++ tail) = some (quote s, tail) := by
  have hstring := copyString_quote s tail
  have heq : quote s ++ tail = '"' :: (s.flatMap quoteChar ++ '"' :: tail) := by simp [quote]
  rw [heq, copyValue, skipSpace_cons (by decide)]
  simp only [hstring, Option.map_some, before, quote, List.singleton_append]

end Strings

section Integers

def decimal (n : Int) : Text :=
  if n < 0 then '-' :: Nat.toDigits 10 n.natAbs else Nat.toDigits 10 n.natAbs

theorem toDigits_head {n : Nat} (hn : 0 < n) : ∃ c rest, Nat.toDigits 10 n = c :: rest ∧ c ≠ '0' := by
  induction n using Nat.strongRecOn with
  | ind n ih =>
      by_cases hsmall : n < 10
      · refine ⟨n.digitChar, [], Nat.toDigits_of_lt_base hsmall, ?_⟩
        clear ih
        interval_cases n <;> decide
      · obtain ⟨c, rest, heq, hc⟩ := ih (n / 10) (by omega) (by omega)
        refine ⟨c, rest ++ [(n % 10).digitChar], ?_, hc⟩
        rw [Nat.toDigits_of_base_le (by decide) (by omega), heq, List.cons_append]

theorem isDigit_toDigits (n : Nat) : ∀ c ∈ Nat.toDigits 10 n, c.isDigit = true :=
  fun _ hc => Nat.isDigit_of_mem_toDigits (by decide) (by decide) hc

theorem isUnsigned_toDigits (n : Nat) : isUnsigned (Nat.toDigits 10 n) = true := by
  have hdigits := isDigit_toDigits n
  by_cases hn : 0 < n
  · obtain ⟨c, rest, heq, hc⟩ := toDigits_head hn
    rw [heq] at hdigits ⊢
    unfold isUnsigned
    split
    · simp_all
    · have htake : (c :: rest).takeWhile Char.isDigit = c :: rest := List.takeWhile_eq_self_iff.mpr hdigits
      have hdrop : (c :: rest).dropWhile Char.isDigit = [] := List.dropWhile_eq_nil_iff.mpr hdigits
      rw [htake, hdrop]
      rfl
  · obtain rfl : n = 0 := by omega
    rfl

theorem isLiteralChar_decimal (n : Int) : ∀ c ∈ decimal n, isLiteralChar c = true := by
  intro c hc
  unfold decimal at hc
  split at hc
  · rcases List.mem_cons.mp hc with rfl | hc
    · rfl
    · simp [isLiteralChar, isDigit_toDigits _ c hc]
  · simp [isLiteralChar, isDigit_toDigits _ c hc]

theorem isLiteral_decimal (n : Int) : isLiteral (decimal n) = true := by
  have hnumber : isNumber (decimal n) = true := by
    unfold decimal
    split
    · exact isUnsigned_toDigits _
    · have hunsigned := isUnsigned_toDigits n.natAbs
      unfold isNumber
      split
      · rename_i rest heq
        have hminus := isDigit_toDigits n.natAbs '-' (by simp [heq])
        cases hminus
      · exact hunsigned
  simp [isLiteral, hnumber]

theorem decimal_cons (n : Int) : ∃ c rest, decimal n = c :: rest := by
  cases heq : decimal n with
  | nil =>
      have hliteral := isLiteral_decimal n
      rw [heq] at hliteral
      cases hliteral
  | cons c rest => exact ⟨c, rest, rfl⟩

theorem copyValue_decimal (n : Int) (m : Nat) {tail : Text} (htail : Follows tail) :
    copyValue (m + 1) (decimal n ++ tail) = some (decimal n, tail) := by
  have htoken := copyLiteral_token (isLiteralChar_decimal n) (isLiteral_decimal n) htail
  obtain ⟨c, rest, heq⟩ := decimal_cons n
  have hc := isLiteralChar_decimal n c (by simp [heq])
  rw [heq] at htoken ⊢
  rw [List.cons_append] at htoken ⊢
  rw [copyValue_literal hc, htoken]

end Integers

example : compact ['[', ' ', '1', ' ', ',', '"', '<', '"', ']'] =
    some ['[', '1', ',', '"', '\\', 'u', '0', '0', '3', 'c', '"', ']'] := by decide

example : compact ['1', ' ', '2'] = none := by decide

end JsonText
