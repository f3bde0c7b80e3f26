import Mathlib.Tactic.Common

-- Percent-encoding of texts in URLs, and queries of named values. What is read
-- back are bytes, the UTF-8 encoding of the text.
namespace PercentEncoding

abbrev Text := List Char

def utf8 (text : Text) : List UInt8 := text.flatMap String.utf8EncodeChar

def hexDigits : Text := "0123456789ABCDEF".toList

def hexDigit (n : Nat) : Char := hexDigits.getD n '0'

def hexValue (c : Char) : Option Nat :=
  if c.isDigit then some (c.toNat - '0'.toNat)
  else if 'A' ≤ c ∧ c ≤ 'F' then some (c.toNat - 'A'.toNat + 10)
  else if 'a' ≤ c ∧ c ≤ 'f' then some (c.toNat - 'a'.toNat + 10)
  else none

def escapeByte (b : UInt8) : Text := ['%', hexDigit (b.toNat / 16), hexDigit (b.toNat % 16)]

-- A character as it stands, or the bytes of its encoding.
def escapeChar (keeps : Char → Bool) (c : Char) : Text :=
  if keeps c then [c] else (String.utf8EncodeChar c).flatMap escapeByte

def escape (keeps : Char → Bool) (text : Text) : Text := text.flatMap (escapeChar keeps)

-- A component of a query, where a plus is a space.
def unescape : Text → Option (List UInt8)
  | [] => some []
  | '%' :: a :: b :: rest =>
      (hexValue a).bind fun x => (hexValue b).bind fun y => (unescape rest).map (UInt8.ofNat (16 * x + y) :: ·)
  | '%' :: _ => none
  | '+' :: rest => (unescape rest).map (32 :: ·)
  | c :: rest => (unescape rest).map (String.utf8EncodeChar c ++ ·)

-- The text before a character and the text after it.
def cut (c : Char) (text : Text) : Text × Text := (text.takeWhile (· ≠ c), (text.dropWhile (· ≠ c)).tail)

def readPair (piece : Text) : Option (List UInt8 × List UInt8) :=
  if ';' ∈ piece ∨ piece = [] then none
  else (unescape (cut '=' piece).1).bind fun key => (unescape (cut '=' piece).2).map fun value => (key, value)

-- The pairs of a query, without those that are malformed.
def readQuery (query : Text) : List (List UInt8 × List UInt8) := (query.splitOn '&').filterMap readPair

def joinQuery (pieces : List Text) : Text := ['&'].intercalate pieces

-- What a writer may leave as it is.
structure Safe (keeps : Char → Bool) : Prop where
  percent : keeps '%' = false
  plus : keeps '+' = false
  ampersand : keeps '&' = false
  equals : keeps '=' = false
  semicolon : keeps ';' = false

theorem utf8_inj {s t : String} : utf8 s.toList = utf8 t.toList ↔ s = t := by
  constructor
  · intro h
    refine String.toByteArray_inj.mp ?_
    rw [← String.utf8Encode_toList, ← String.utf8Encode_toList]
    exact congrArg List.toByteArray h
  · exact fun h => by rw [h]

section Unescape

theorem hexValue_hexDigit : ∀ n < 16, hexValue (hexDigit n) = some n := by decide

theorem unescape_escapeByte (b : UInt8) (rest : Text) :
    unescape (escapeByte b ++ rest) = (unescape rest).map (b :: ·) := by
  have hlt := UInt8.toNat_lt b
  have hhigh := hexValue_hexDigit (b.toNat / 16) (by omega)
  have hlow := hexValue_hexDigit (b.toNat % 16) (by omega)
  have hb : UInt8.ofNat (16 * (b.toNat / 16) + b.toNat % 16) = b := by
    rw [Nat.div_add_mod]
    exact UInt8.ofNat_toNat
  simp only [escapeByte, List.cons_append, List.nil_append, unescape, hhigh, hlow, Option.bind_some, hb]

theorem unescape_escapeBytes (bytes : List UInt8) (rest : Text) :
    unescape (bytes.flatMap escapeByte ++ rest) = (unescape rest).map (bytes ++ ·) := by
  induction bytes with
  | nil => simp
  | cons b bytes ih =>
      rw [List.flatMap_cons, List.append_assoc, unescape_escapeByte, ih, Option.map_map]
      rfl

theorem unescape_cons {c : Char} (hpercent : c ≠ '%') (hplus : c ≠ '+') (rest : Text) :
    unescape (c :: rest) = (unescape rest).map (String.utf8EncodeChar c ++ ·) := by
  rw [unescape]
  · exact fun _ _ _ h => absurd h hpercent
  · exact hpercent
  · exact hplus

variable {keeps : Char → Bool}

theorem unescape_escape_append (hsafe : Safe keeps) (text rest : Text) :
    unescape (escape keeps text ++ rest) = (unescape rest).map (utf8 text ++ ·) := by
  induction text with
  | nil => simp [escape, utf8]
  | cons c text ih =>
      have hchar : unescape (escapeChar keeps c ++ (escape keeps text ++ rest)) =
          (unescape (escape keeps text ++ rest)).map (String.utf8EncodeChar c ++ ·) := by
        cases hkeeps : keeps c with
        | true =>
            have hpercent : c ≠ '%' := by
              rintro rfl
              exact absurd (hsafe.percent.symm.trans hkeeps) nofun
            have hplus : c ≠ '+' := by
              rintro rfl
              exact absurd (hsafe.plus.symm.trans hkeeps) nofun
            rw [escapeChar, if_pos hkeeps]
            exact unescape_cons hpercent hplus _
        | false =>
            rw [escapeChar, if_neg (by simp [hkeeps])]
            exact unescape_escapeBytes _ _
      rw [escape, List.flatMap_cons, List.append_assoc]
      refine hchar.trans ?_
      rw [ih, Option.map_map]
      simp [utf8, Function.comp_def]

-- What was escaped is read back.
theorem unescape_escape (hsafe : Safe keeps) (text : Text) :
    unescape (escape keeps text) = some (utf8 text) := by
  have h := unescape_escape_append hsafe text []
  simpa [unescape] using h

end Unescape

section Query

variable {keeps : Char → Bool}

theorem hexDigit_mem : ∀ n < 16, hexDigit n ∈ hexDigits := by decide

theorem mem_escape {c : Char} {text : Text} (h : c ∈ escape keeps text) :
    keeps c = true ∨ c = '%' ∨ c ∈ hexDigits := by
  obtain ⟨d, _, hd⟩ := List.mem_flatMap.mp h
  unfold escapeChar at hd
  split at hd
  · rename_i hkeeps
    rw [List.mem_singleton.mp hd]
    exact .inl hkeeps
  · obtain ⟨b, _, hb⟩ := List.mem_flatMap.mp hd
    have hlt := UInt8.toNat_lt b
    rcases List.mem_cons.mp hb with rfl | hb
    · exact .inr (.inl rfl)
    · rcases List.mem_cons.mp hb with rfl | hb
      · exact .inr (.inr (hexDigit_mem _ (by omega)))
      · rw [List.mem_singleton.mp hb]
        exact .inr (.inr (hexDigit_mem _ (by omega)))

theorem not_mem_escape {c : Char} (hkeeps : keeps c = false) (hpercent : c ≠ '%') (hhex : c ∉ hexDigits)
    (text : Text) : c ∉ escape keeps text := by
  intro hmem
  obtain h | h | h := mem_escape hmem
  · exact absurd (hkeeps.symm.trans h) nofun
  · exact hpercent h
  · exact hhex h

def writePair (keeps : Char → Bool) (pair : Text × Text) : Text :=
  escape keeps pair.1 ++ '=' :: escape keeps pair.2

theorem cut_append {c : Char} {before after : Text} (h : c ∉ before) :
    cut c (before ++ c :: after) = (before, after) := by
  have htake : (before ++ c :: after).takeWhile (· ≠ c) = before := by
    rw [List.takeWhile_append_of_pos fun d hd => by
      simp only [decide_eq_true_eq]
      rintro rfl
      exact h hd]
    simp
  have hdrop : (before ++ c :: after).dropWhile (· ≠ c) = c :: after := by
    rw [List.dropWhile_append_of_pos fun d hd => by
      simp only [decide_eq_true_eq]
      rintro rfl
      exact h hd]
    simp
  rw [cut, htake, hdrop, List.tail_cons]

theorem readPair_writePair (hsafe : Safe keeps) (pair : Text × Text) :
    readPair (writePair keeps pair) = some (utf8 pair.1, utf8 pair.2) := by
  have hsemicolon : ';' ∉ writePair keeps pair := by
    have hnone := not_mem_escape hsafe.semicolon (by decide) (by decide)
    intro hmem
    rcases List.mem_append.mp hmem with hkey | hvalue
    · exact hnone pair.1 hkey
    · rcases List.mem_cons.mp hvalue with heq | hvalue
      · cases heq
      · exact hnone pair.2 hvalue
  have hne : writePair keeps pair ≠ [] := by simp [writePair]
  have hequals : '=' ∉ escape keeps pair.1 := not_mem_escape hsafe.equals (by decide) (by decide) _
  rw [readPair, if_neg (not_or.mpr ⟨hsemicolon, hne⟩), writePair, cut_append hequals]
  simp only [unescape_escape hsafe, Option.bind_some, Option.map_some]

-- What was written as a query is read back, pair by pair.
theorem readQuery_joinQuery (hsafe : Safe keeps) (pairs : List (Text × Text)) :
    readQuery (joinQuery (pairs.map (writePair keeps))) = pairs.map fun pair => (utf8 pair.1, utf8 pair.2) := by
  cases hempty : pairs with
  | nil => rfl
  | cons first rest =>
      rw [← hempty]
      have hpieces : ∀ piece ∈ pairs.map (writePair keeps), '&' ∉ piece := by
        intro piece hpiece
        obtain ⟨pair, _, rfl⟩ := List.mem_map.mp hpiece
        have hnone := not_mem_escape hsafe.ampersand (by decide) (by decide)
        intro hmem
        rcases List.mem_append.mp hmem with hkey | hvalue
        · exact hnone pair.1 hkey
        · rcases List.mem_cons.mp hvalue with heq | hvalue
          · cases heq
          · exact hnone pair.2 hvalue
      have hne : pairs.map (writePair keeps) ≠ [] := by simp [hempty]
      rw [readQuery, joinQuery, List.splitOn_intercalate '&' hpieces hne, List.filterMap_map]
      have hread : readPair ∘ writePair keeps = fun pair => some (utf8 pair.1, utf8 pair.2) :=
        funext (readPair_writePair hsafe)
      rw [hread, List.filterMap_eq_map']

end Query

end PercentEncoding
