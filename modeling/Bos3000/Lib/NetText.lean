import Mathlib.Data.List.TakeWhile
import Mathlib.Data.Option.Basic
import Bos3000.Lib.Net

-- An address is read back from its text.
namespace Net

section Digits

theorem digitValue_digitChar : ∀ d < 16, digitValue d.digitChar = some d := by decide

theorem number_append (base : Nat) (front : List Char) (c : Char) :
    number base (front ++ [c]) = base * number base front + (digitValue c).getD 0 := by
  simp [number]

theorem number_toDigits {base : Nat} (hbase : 1 < base) (hhex : base ≤ 16) (n : Nat) :
    number base (Nat.toDigits base n) = n := by
  induction n using Nat.base_induction base hbase with
  | single m hm =>
      rw [Nat.toDigits_of_lt_base hm]
      simp [number, digitValue_digitChar m (by omega)]
  | digit m k hk hm ih =>
      rw [← Nat.toDigits_append_toDigits hbase hm hk, Nat.toDigits_of_lt_base hk, number_append, ih,
        digitValue_digitChar k (by omega), Option.getD_some]

def hexDigits : List Char := "0123456789abcdef".toList

theorem digitChar_mem : ∀ d < 16, d.digitChar ∈ hexDigits := by decide

theorem isSome_digitValue : ∀ c ∈ hexDigits, (digitValue c).isSome := by
  have hall : hexDigits.all (fun c => (digitValue c).isSome) = true := by decide
  exact List.all_eq_true.mp hall

theorem mem_toDigits {base : Nat} (hbase : 1 < base) (hhex : base ≤ 16) (n : Nat) :
    ∀ c ∈ Nat.toDigits base n, c ∈ hexDigits := by
  induction n using Nat.base_induction base hbase with
  | single m hm =>
      rw [Nat.toDigits_of_lt_base hm]
      simp [digitChar_mem m (by omega)]
  | digit m k hk hm ih =>
      rw [← Nat.toDigits_append_toDigits hbase hm hk, Nat.toDigits_of_lt_base hk]
      intro c hc
      obtain hc | hc := List.mem_append.mp hc
      · exact ih c hc
      · exact List.mem_singleton.mp hc ▸ digitChar_mem k (by omega)

end Digits

section V4

theorem octet_toDigits : ∀ n < 256, octet (Nat.toDigits 10 n) = some (BitVec.ofNat 8 n) := by decide +kernel

def octets (v : BitVec 32) : List (BitVec 8) := [24, 16, 8, 0].map fun i => v.extractLsb' i 8

theorem v4Text_toList (v : BitVec 32) :
    (v4Text v).toList = ['.'].intercalate ((octets v).map fun o => Nat.toDigits 10 o.toNat) := by
  simp [v4Text, octets]

theorem append_octets (v : BitVec 32) : v.extractLsb' 24 8 ++ v.extractLsb' 16 8 ++ v.extractLsb' 8 8 ++
    v.extractLsb' 0 8 = v := by
  apply BitVec.eq_of_getLsbD_eq
  intro i hi
  simp only [BitVec.getLsbD_append, BitVec.getLsbD_extractLsb']
  split
  · simp [*]
  · split
    · rw [show 8 + (i - 8) = i by omega]
      simp [*]
    · split
      · rw [show 16 + (i - 8 - 8) = i by omega]
        simp [*]
      · rw [show 24 + (i - 8 - 8 - 8) = i by omega]
        simp
        omega

theorem mapM_octet (os : List (BitVec 8)) : (os.map fun o => Nat.toDigits 10 o.toNat).mapM octet = some os := by
  induction os with
  | nil => rfl
  | cons o rest ih =>
      rw [List.map_cons, List.mapM_cons, octet_toDigits o.toNat o.isLt, ih, BitVec.ofNat_toNat, BitVec.setWidth_eq]
      rfl

theorem parseIPv4_text (v : BitVec 32) : parseIPv4 (v4Text v).toList = some v := by
  have hsplit : (v4Text v).toList.splitOn '.' = (octets v).map fun o => Nat.toDigits 10 o.toNat := by
    rw [v4Text_toList]
    refine List.splitOn_intercalate '.' ?_ (by simp [octets])
    intro field hfield
    obtain ⟨o, _, rfl⟩ := List.mem_map.mp hfield
    intro hdot
    exact absurd (mem_toDigits (by decide) (by decide) o.toNat _ hdot) (by decide)
  rw [parseIPv4, hsplit, mapM_octet]
  exact congrArg some (append_octets v)

end V4

section V6

def hex (g : BitVec 16) : List Char := Nat.toDigits 16 g.toNat

def hexs (gs : List (BitVec 16)) : List Char := [':'].intercalate (gs.map hex)

theorem groupsText_toList (gs : List (BitVec 16)) : (groupsText gs).toList = hexs gs := by
  simp [groupsText, hexs, Function.comp_def]
  rfl

theorem mem_hex {g : BitVec 16} : ∀ c ∈ hex g, c ∈ hexDigits := mem_toDigits (by decide) (by decide) g.toNat

theorem isSome_of_mem_hex {g : BitVec 16} : ∀ c ∈ hex g, (digitValue c).isSome :=
  fun c hc => isSome_digitValue c (mem_hex c hc)

theorem hex_digits (g : BitVec 16) {tail : List Char} (htail : ∀ c ∈ tail.head?, digitValue c = none) :
    (hex g ++ tail).takeWhile (fun c => (digitValue c).isSome) = hex g := by
  rw [List.takeWhile_append_of_pos isSome_of_mem_hex]
  cases tail with
  | nil => simp
  | cons c rest => simp [htail c rfl]

theorem hex_length (g : BitVec 16) : ¬ (hex g = [] ∨ 4 < (hex g).length) := by
  have hlength : (hex g).length ≤ 4 := (Nat.length_toDigits_le_iff (by decide) (by decide)).mpr g.isLt
  rintro (h | h)
  · exact Nat.toDigits_ne_nil h
  · omega

theorem hex_value (g : BitVec 16) : BitVec.ofNat 16 (number 16 (hex g)) = g := by
  rw [hex, number_toDigits (by decide) (by decide), BitVec.ofNat_toNat, BitVec.setWidth_eq]

section Steps

variable (n : Nat) (g : BitVec 16) (found : List (BitVec 16)) (ellipsis : Option Nat)

-- A group is read, and what follows it decides how to go on.
theorem groups_end : groups (n + 1) (hex g) found ellipsis = some (found ++ [g], ellipsis) := by
  have hdigits := @hex_digits g [] (by simp)
  rw [List.append_nil] at hdigits
  simp [groups, hdigits, if_neg (hex_length g), hex_value]

theorem groups_colon {c : Char} {rest : List Char} (hc : c ≠ ':') :
    groups (n + 1) (hex g ++ ':' :: c :: rest) found ellipsis = groups n (c :: rest) (found ++ [g]) ellipsis := by
  have hdigits := @hex_digits g (':' :: c :: rest) (by simp; decide)
  simp [groups, hdigits, if_neg (hex_length g), hex_value, hc]

theorem groups_gap (rest : List Char) : groups (n + 1) (hex g ++ ':' :: ':' :: rest) found none =
    if rest = [] then some (found ++ [g], some (found ++ [g]).length)
    else groups n rest (found ++ [g]) (some (found ++ [g]).length) := by
  have hdigits := @hex_digits g (':' :: ':' :: rest) (by simp; decide)
  simp [groups, hdigits, if_neg (hex_length g), hex_value]

end Steps

theorem hexs_cons_cons (g next : BitVec 16) (rest : List (BitVec 16)) :
    hexs (g :: next :: rest) = hex g ++ ':' :: hexs (next :: rest) := by
  simp [hexs, List.intercalate_cons_cons]

theorem hexs_singleton (g : BitVec 16) : hexs [g] = hex g := by simp [hexs]

theorem hexs_head {gs : List (BitVec 16)} (hne : gs ≠ []) (tail : List Char) :
    ∃ c rest, hexs gs ++ tail = c :: rest ∧ (digitValue c).isSome := by
  obtain ⟨g, more, rfl⟩ := List.exists_cons_of_ne_nil hne
  obtain ⟨c, digits, hdigits⟩ := List.exists_cons_of_ne_nil fun h => hex_length g (.inl h)
  have hc : (digitValue c).isSome := isSome_of_mem_hex c (hdigits ▸ List.mem_cons_self)
  cases more with
  | nil => exact ⟨c, digits ++ tail, by rw [hexs_singleton, hdigits, List.cons_append], hc⟩
  | cons next more =>
      exact ⟨c, digits ++ ':' :: hexs (next :: more) ++ tail, by rw [hexs_cons_cons, hdigits]; simp, hc⟩

-- A colon and a text that starts with a group.
theorem groups_next (n : Nat) (g : BitVec 16) {gs : List (BitVec 16)} (hne : gs ≠ []) (tail : List Char)
    (found : List (BitVec 16)) (ellipsis : Option Nat) :
    groups (n + 1) (hex g ++ ':' :: (hexs gs ++ tail)) found ellipsis =
      groups n (hexs gs ++ tail) (found ++ [g]) ellipsis := by
  obtain ⟨c, rest, heq, hc⟩ := hexs_head hne tail
  have hcolon : c ≠ ':' := by
    rintro rfl
    exact absurd hc (by decide)
  rw [heq, groups_colon n g found ellipsis hcolon]

theorem groups_hexs {n : Nat} {gs : List (BitVec 16)} (hne : gs ≠ []) (hlength : gs.length ≤ n)
    (found : List (BitVec 16)) (ellipsis : Option Nat) :
    groups n (hexs gs) found ellipsis = some (found ++ gs, ellipsis) := by
  induction gs generalizing n found with
  | nil => exact absurd rfl hne
  | cons g rest ih =>
      obtain ⟨n, rfl⟩ : ∃ m, n = m + 1 := ⟨n - 1, by simp at hlength; omega⟩
      cases rest with
      | nil => rw [hexs_singleton, groups_end]
      | cons next rest =>
          have hnext := @groups_next n g (next :: rest) (by simp) [] found ellipsis
          rw [List.append_nil] at hnext
          rw [hexs_cons_cons, hnext, ih (by simp) (by simpa using hlength)]
          simp

-- The groups before the ellipsis.
theorem groups_ellipsis {n : Nat} {gs : List (BitVec 16)} (hne : gs ≠ []) (hlength : gs.length ≤ n)
    (found : List (BitVec 16)) (rest : List Char) : groups n (hexs gs ++ ':' :: ':' :: rest) found none =
      if rest = [] then some (found ++ gs, some (found ++ gs).length)
      else groups (n - gs.length) rest (found ++ gs) (some (found ++ gs).length) := by
  induction gs generalizing n found with
  | nil => exact absurd rfl hne
  | cons g more ih =>
      obtain ⟨n, rfl⟩ : ∃ m, n = m + 1 := ⟨n - 1, by simp at hlength; omega⟩
      cases more with
      | nil =>
          rw [hexs_singleton, groups_gap]
          simp
      | cons next more =>
          rw [hexs_cons_cons, List.append_assoc, List.cons_append, groups_next n g (by simp),
            ih (by simp) (by simpa using hlength)]
          simp

-- The groups are shifted in from the left.
theorem shiftIn_group (ip : IP) (k : Nat) :
    (ip >>> (k + 16)) <<< 16 ||| (ip.extractLsb' k 16).setWidth 128 = ip >>> k := by
  apply BitVec.eq_of_getLsbD_eq
  intro i hi
  simp only [BitVec.getLsbD_or, BitVec.getLsbD_shiftLeft, BitVec.getLsbD_setWidth, BitVec.getLsbD_extractLsb',
    BitVec.getLsbD_ushiftRight]
  by_cases hlow : i < 16
  · simp [hlow, hi]
  · simp [hlow, hi, show k + 16 + (i - 16) = k + i by omega]

theorem ofGroups_toGroups (ip : IP) : ofGroups (toGroups ip) = ip := by
  have hstart : (0 : IP) = ip >>> (112 + 16) := by
    apply BitVec.eq_of_getLsbD_eq
    intro i hi
    simp
  simp only [ofGroups, toGroups, List.map_cons, List.map_nil, List.foldl_cons, List.foldl_nil]
  rw [hstart, shiftIn_group ip 112, shiftIn_group ip 96, shiftIn_group ip 80, shiftIn_group ip 64,
    shiftIn_group ip 48, shiftIn_group ip 32, shiftIn_group ip 16, shiftIn_group ip 0]
  exact BitVec.ushiftRight_zero ip

theorem v4InV6_of_to4 {ip : IP} {v : BitVec 32} (h : to4 ip = some v) : v4InV6 v = ip := by
  simp only [to4, Option.ite_none_right_eq_some, Option.some.injEq] at h
  obtain ⟨hhigh, rfl⟩ := h
  apply BitVec.eq_of_getLsbD_eq
  intro i hi
  rw [v4InV6, ← hhigh]
  simp only [BitVec.getLsbD_or, BitVec.getLsbD_shiftLeft, BitVec.getLsbD_setWidth, BitVec.getLsbD_ushiftRight]
  by_cases hlow : i < 32
  · simp [hlow, hi]
  · simp [hlow, hi, show 32 + (i - 32) = i by omega]

-- The run is one of at least two groups.
theorem zeroRun_eq_some {gs : List (BitVec 16)} {i n : Nat} (h : zeroRun gs = some (i, n)) :
    2 ≤ n ∧ n = ((gs.drop i).takeWhile (· = 0)).length := by
  have hinv : ∀ (is : List Nat) (best : Option (Nat × Nat)),
      (∀ run ∈ best, 2 ≤ run.2 ∧ run.2 = ((gs.drop run.1).takeWhile (· = 0)).length) →
      ∀ run ∈ is.foldl (fun best i =>
        let length := ((gs.drop i).takeWhile (· = 0)).length
        if 2 ≤ length ∧ (best.map Prod.snd).getD 0 < length then some (i, length) else best) best,
        2 ≤ run.2 ∧ run.2 = ((gs.drop run.1).takeWhile (· = 0)).length := by
    intro is
    induction is with
    | nil => exact fun best hbest => hbest
    | cons i rest ih =>
        intro best hbest
        apply ih
        intro run hrun
        dsimp only at hrun
        split at hrun
        · rename_i hcond
          obtain rfl : (i, _) = run := by simpa using hrun
          exact ⟨hcond.1, rfl⟩
        · exact hbest run hrun
  exact hinv _ none (by simp) (i, n) h

theorem zeroRun_le {gs : List (BitVec 16)} {i n : Nat} (h : zeroRun gs = some (i, n)) : i + n ≤ gs.length := by
  obtain ⟨hn, heq⟩ := zeroRun_eq_some h
  have hprefix : ((gs.drop i).takeWhile (· = 0)).length ≤ (gs.drop i).length := (List.takeWhile_prefix _).length_le
  rw [← heq, List.length_drop] at hprefix
  omega

-- The zeros are put back where the run was left out.
theorem expand_zeroRun {gs : List (BitVec 16)} {i n : Nat} (h : zeroRun gs = some (i, n)) (hlength : gs.length = 8) :
    expand (gs.take i ++ gs.drop (i + n), some i) = some gs := by
  obtain ⟨hn, heq⟩ := zeroRun_eq_some h
  have hzeros : (gs.drop i).takeWhile (· = 0) = List.replicate n 0 := by
    refine List.eq_replicate_iff.mpr ⟨heq.symm, ?_⟩
    intro g hg
    simpa using List.mem_takeWhile_imp hg
  have hle := zeroRun_le h
  have hdrop : gs.drop i = List.replicate n 0 ++ gs.drop (i + n) := by
    calc gs.drop i = (gs.drop i).take n ++ (gs.drop i).drop n := (List.take_append_drop n _).symm
      _ = List.replicate n 0 ++ gs.drop (i + n) := by
          rw [List.drop_drop, ← hzeros, heq, ← List.prefix_iff_eq_take.mp (List.takeWhile_prefix _)]
  have hcount : (gs.take i ++ gs.drop (i + n)).length = 8 - n := by simp; omega
  have htake : (gs.take i ++ gs.drop (i + n)).take i = gs.take i := by
    rw [List.take_left' (by simp; omega)]
  have hrest : (gs.take i ++ gs.drop (i + n)).drop i = gs.drop (i + n) := by
    rw [List.drop_left' (by simp; omega)]
  rw [expand, if_pos (by omega), htake, hrest, hcount, show 8 - (8 - n) = n by omega, List.append_assoc, ← hdrop,
    List.take_append_drop]

theorem parseIPv6_group {s rest : List Char} {c : Char} (hs : s = c :: rest) (hc : (digitValue c).isSome) :
    parseIPv6 s = ((groups 8 s [] none).bind expand).map ofGroups := by
  rw [parseIPv6]
  intro more hmore
  rw [hmore, List.cons_eq_cons] at hs
  exact absurd (hs.1 ▸ hc) (by decide)

-- The text of eight groups, and of groups around an ellipsis.
theorem parseIPv6_hexs {gs : List (BitVec 16)} (hlength : gs.length = 8) :
    parseIPv6 (hexs gs) = some (ofGroups gs) := by
  have hne : gs ≠ [] := List.ne_nil_of_length_pos (by omega)
  obtain ⟨c, rest, heq, hc⟩ := hexs_head hne []
  rw [List.append_nil] at heq
  rw [parseIPv6_group heq hc, groups_hexs hne (by omega : gs.length ≤ 8)]
  simp [expand, hlength]

theorem parseIPv6_gap {front rest : List (BitVec 16)} (hlength : front.length + rest.length ≤ 8) :
    parseIPv6 (hexs front ++ ':' :: ':' :: hexs rest) =
      (expand (front ++ rest, some front.length)).map ofGroups := by
  have hrest : ∀ n, rest.length ≤ n → (if hexs rest = [] then some (front, some front.length)
      else groups n (hexs rest) front (some front.length)) = some (front ++ rest, some front.length) := by
    intro n hn
    by_cases hnil : rest = []
    · simp [hnil, hexs]
    · obtain ⟨c, more, heq, _⟩ := hexs_head hnil []
      rw [List.append_nil] at heq
      rw [if_neg (by simp [heq]), groups_hexs hnil hn]
  by_cases hfront : front = []
  · subst hfront
    have hread := hrest 8 (by simpa using hlength)
    simp only [List.length_nil, List.nil_append] at hread
    rw [show hexs [] = [] from rfl, List.nil_append, parseIPv6, hread]
    rfl
  · obtain ⟨c, more, heq, hc⟩ := hexs_head hfront (':' :: ':' :: hexs rest)
    rw [parseIPv6_group heq hc, groups_ellipsis hfront (by omega : front.length ≤ 8), List.nil_append,
      hrest _ (by omega)]
    rfl

end V6

section Address

theorem find_separator {digits : List Char} (hdigits : ∀ c ∈ digits, c ∈ hexDigits) {c : Char}
    (hc : c = '.' ∨ c = ':') (rest : List Char) :
    (digits ++ c :: rest).find? (fun c => c = '.' ∨ c = ':' ∨ c = '%') = some c := by
  have hnone : digits.find? (fun c => c = '.' ∨ c = ':' ∨ c = '%') = none := by
    refine List.find?_eq_none.mpr ?_
    intro d hd
    have hall : hexDigits.all (fun d => !decide (d = '.' ∨ d = ':' ∨ d = '%')) = true := by decide
    simpa using List.all_eq_true.mp hall d (hdigits d hd)
  rw [List.find?_append, hnone, Option.none_or, List.find?_cons_of_pos]
  obtain rfl | rfl := hc <;> rfl

theorem parseAddr_v4Text (v : BitVec 32) : parseAddr (v4Text v).toList = some (v4InV6 v, 32) := by
  have hfind : (v4Text v).toList.find? (fun c => c = '.' ∨ c = ':' ∨ c = '%') = some '.' := by
    rw [v4Text_toList, octets, List.map_cons, List.map_cons, List.map_cons, List.map_cons, List.intercalate_cons_cons,
      List.append_assoc]
    exact find_separator (mem_toDigits (by decide) (by decide) _) (.inl rfl) _
  rw [parseAddr, hfind]
  simp [parseIPv4_text]

theorem find_colon (gs : List (BitVec 16)) (tail : List Char) :
    (hexs gs ++ ':' :: tail).find? (fun c => c = '.' ∨ c = ':' ∨ c = '%') = some ':' := by
  match gs with
  | [] => rfl
  | [g] => exact hexs_singleton g ▸ find_separator mem_hex (.inr rfl) _
  | g :: next :: rest =>
      rw [hexs_cons_cons, List.append_assoc]
      exact find_separator mem_hex (.inr rfl) _

theorem toGroups_length (ip : IP) : (toGroups ip).length = 8 := rfl

theorem parseAddr_v6Text (ip : IP) : parseAddr (v6Text ip).toList = some (ip, 128) := by
  unfold v6Text
  split
  · have hfind : (hexs (toGroups ip)).find? (fun c => c = '.' ∨ c = ':' ∨ c = '%') = some ':' := by
      rw [toGroups, List.map_cons, List.map_cons, hexs_cons_cons]
      exact find_separator mem_hex (.inr rfl) _
    rw [groupsText_toList, parseAddr, hfind]
    simp [parseIPv6_hexs (toGroups_length ip), ofGroups_toGroups]
  · rename_i start n hrun
    have hlength := toGroups_length ip
    have htext : (groupsText ((toGroups ip).take start) ++ "::" ++ groupsText ((toGroups ip).drop (start + n))).toList =
        hexs ((toGroups ip).take start) ++ ':' :: ':' :: hexs ((toGroups ip).drop (start + n)) := by
      simp [String.toList_append, groupsText_toList]
    have hle := zeroRun_le hrun
    have hfront : ((toGroups ip).take start).length = start := List.length_take_of_le (by omega)
    have hparse := @parseIPv6_gap ((toGroups ip).take start) ((toGroups ip).drop (start + n))
      (by rw [hfront, List.length_drop]; omega)
    rw [hfront, expand_zeroRun hrun hlength] at hparse
    rw [htext, parseAddr, find_colon]
    simp [hparse, ofGroups_toGroups]

-- Every address is read back from its text.
theorem parseIP_text (ip : IP) : parseIP (text ip) = some ip := by
  unfold parseIP text
  split
  · rename_i v hv
    rw [parseAddr_v4Text, v4InV6_of_to4 hv]
    rfl
  · rw [parseAddr_v6Text]
    rfl

theorem text_ne_empty (ip : IP) : text ip ≠ "" := by
  intro hempty
  have hread := parseIP_text ip
  rw [hempty, show parseIP "" = none from rfl] at hread
  cases hread

def addressChars : List Char := hexDigits ++ ['.', ':']

theorem mem_intercalate {sep c : Char} {fields : List (List Char)} (hc : c ∈ [sep].intercalate fields) :
    c = sep ∨ ∃ field ∈ fields, c ∈ field := by
  induction fields with
  | nil => simp at hc
  | cons field rest ih =>
      cases rest with
      | nil =>
          rw [List.intercalate_singleton] at hc
          exact .inr ⟨field, List.mem_cons_self, hc⟩
      | cons next more =>
          rw [List.intercalate_cons_cons, List.append_assoc] at hc
          simp only [List.mem_append, List.mem_singleton] at hc
          obtain hfield | hsep | hmore := hc
          · exact .inr ⟨field, List.mem_cons_self, hfield⟩
          · exact .inl hsep
          · obtain rfl | ⟨field, hfield, hmem⟩ := ih hmore
            · exact .inl rfl
            · exact .inr ⟨field, List.mem_cons_of_mem _ hfield, hmem⟩

theorem mem_hexs {gs : List (BitVec 16)} : ∀ c ∈ hexs gs, c ∈ addressChars := by
  intro c hc
  obtain rfl | ⟨field, hfield, hmem⟩ := mem_intercalate hc
  · decide
  · obtain ⟨g, _, rfl⟩ := List.mem_map.mp hfield
    exact List.mem_append_left _ (mem_hex c hmem)

theorem mem_text (ip : IP) : ∀ c ∈ (text ip).toList, c ∈ addressChars := by
  intro c hc
  unfold text at hc
  split at hc
  · rename_i v hv
    rw [v4Text_toList] at hc
    obtain rfl | ⟨field, hfield, hmem⟩ := mem_intercalate hc
    · decide
    · obtain ⟨o, _, rfl⟩ := List.mem_map.mp hfield
      exact List.mem_append_left _ (mem_toDigits (by decide) (by decide) _ c hmem)
  · unfold v6Text at hc
    split at hc
    · exact mem_hexs c (groupsText_toList _ ▸ hc)
    · simp only [String.toList_append, groupsText_toList, List.mem_append] at hc
      obtain (hfront | hgap) | hrest := hc
      · exact mem_hexs c hfront
      · have hgap : ("::".toList).all (fun c => decide (c ∈ addressChars)) = true := by decide
        exact of_decide_eq_true (List.all_eq_true.mp hgap c ‹_›)
      · exact mem_hexs c hrest

end Address

end Net
