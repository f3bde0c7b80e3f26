import Mathlib.Tactic.Common

-- Commands in text: words that single spaces separate, on one line.
namespace Words

def words (s : String) : List String := (s.toList.splitOn ' ').map String.ofList

def unwords (ws : List String) : String := " ".intercalate ws

@[simp] theorem unwords_singleton (w : String) : unwords [w] = w := by
  simp [unwords]

@[simp] theorem unwords_cons_cons (w v : String) (rest : List String) :
    unwords (w :: v :: rest) = w ++ " " ++ unwords (v :: rest) := by
  simp [unwords, String.intercalate_cons_cons]

-- A word has neither the separator nor a line break.
def isWord (s : String) : Bool := s.toList.all fun c => c ≠ ' ' && c ≠ '\r' && c ≠ '\n'

def isLine (s : String) : Bool := s.toList.all fun c => c ≠ '\r' && c ≠ '\n'

@[simp] theorem isWord_append (s t : String) : isWord (s ++ t) = (isWord s && isWord t) := by
  simp [isWord]

@[simp] theorem isLine_append (s t : String) : isLine (s ++ t) = (isLine s && isLine t) := by
  simp [isLine]

theorem isWord_iff {s : String} : isWord s = true ↔ ' ' ∉ s.toList ∧ isLine s = true := by
  simp only [isWord, isLine, List.all_eq_true, Bool.and_eq_true, decide_eq_true_eq]
  constructor
  · exact fun h => ⟨fun hspace => (h ' ' hspace).1.1 rfl, fun c hc => ⟨(h c hc).1.2, (h c hc).2⟩⟩
  · rintro ⟨hspace, hline⟩ c hc
    refine ⟨⟨?_, (hline c hc).1⟩, (hline c hc).2⟩
    rintro rfl
    exact hspace hc

-- The pieces of a split list are free of the separator.
theorem not_mem_of_mem_splitOn {α : Type*} [BEq α] [LawfulBEq α] {a : α} {xs piece : List α}
    (h : piece ∈ xs.splitOn a) : a ∉ piece := by
  induction xs generalizing piece with
  | nil =>
      simp only [List.splitOn_nil, List.mem_singleton] at h
      simp [h]
  | cons x rest ih =>
      rw [List.splitOn_cons_eq_if_modifyHead] at h
      split at h
      · rcases List.mem_cons.mp h with rfl | h
        · exact List.not_mem_nil
        · exact ih h
      · rename_i hne
        obtain ⟨first, others, hsplit⟩ := List.exists_cons_of_ne_nil (List.splitOn_ne_nil a rest)
        rw [hsplit, List.modifyHead_cons] at h
        rcases List.mem_cons.mp h with rfl | h
        · have hfirst : a ∉ first := ih (hsplit ▸ List.mem_cons_self)
          simp only [List.mem_cons, not_or]
          exact ⟨fun heq => hne (by simp [heq]), hfirst⟩
        · exact ih (hsplit ▸ List.mem_cons_of_mem _ h)

theorem not_mem_of_mem_words {s w : String} (h : w ∈ words s) : ' ' ∉ w.toList := by
  obtain ⟨piece, hpiece, rfl⟩ := List.mem_map.mp h
  rw [String.toList_ofList]
  exact not_mem_of_mem_splitOn hpiece

-- A text reads as the words it was put together from exactly if none of them has
-- the separator.
theorem words_unwords_iff {ws : List String} (hne : ws ≠ []) :
    words (unwords ws) = ws ↔ ∀ w ∈ ws, ' ' ∉ w.toList := by
  constructor
  · intro h w hw
    rw [← h] at hw
    exact not_mem_of_mem_words hw
  · intro h
    have hpieces : ∀ piece ∈ ws.map String.toList, ' ' ∉ piece := by simpa using h
    have hsplit := List.splitOn_intercalate ' ' hpieces (by simpa using hne)
    rw [words, unwords, String.toList_intercalate]
    change (([' '].intercalate (ws.map String.toList)).splitOn ' ').map String.ofList = ws
    rw [hsplit, List.map_map]
    simp

theorem isLine_unwords (ws : List String) : isLine (unwords ws) = ws.all isLine := by
  induction ws with
  | nil => rfl
  | cons w rest ih =>
      cases rest with
      | nil => simp
      | cons v rest =>
          have hspace : isLine " " = true := by decide
          rw [unwords_cons_cons, isLine_append, isLine_append, ih, hspace, Bool.and_true]
          rfl

-- One line that reads as the words it was put together from.
theorem reads_iff {ws : List String} (hne : ws ≠ []) :
    isLine (unwords ws) = true ∧ words (unwords ws) = ws ↔ ∀ w ∈ ws, isWord w = true := by
  simp only [isLine_unwords, List.all_eq_true, words_unwords_iff hne, isWord_iff]
  exact ⟨fun h w hw => ⟨h.2 w hw, h.1 w hw⟩, fun h => ⟨fun w hw => (h w hw).2, fun w hw => (h w hw).1⟩⟩

end Words
