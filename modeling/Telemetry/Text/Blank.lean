/-!
# Blanks, lines and words

A character is *blank* if it has the property `White_Space`.  Texts are lists of
characters here, so that every function below is a recursion on the data.
`trim` drops the blanks at both ends, `words` the blanks everywhere, and `lines`
cuts at line feeds.  `splitAt` cuts lists of anything, and no piece holds an element
that it was cut at (`not_cut_of_mem_splitAt`).
-/

namespace Telemetry.Text

/-- The property `White_Space`. -/
def isBlank (c : Char) : Bool :=
  c = ' ' || ('\t' ≤ c && c ≤ '\x0d') || c = '\x85' || c = '\xa0' || c = '\u1680'
    || ('\u2000' ≤ c && c ≤ '\u200a') || c = '\u2028' || c = '\u2029' || c = '\u202f'
    || c = '\u205f' || c = '\u3000'

/-- Every blank of the character library is a blank here. -/
theorem isBlank_of_isWhitespace {c : Char} (h : c.isWhitespace) : isBlank c := by
  simp only [Char.isWhitespace, Bool.or_eq_true, decide_eq_true_eq] at h
  rcases h with ((rfl | rfl) | rfl) | rfl <;> decide

/-- The text from its first character that is not blank. -/
def trimStart (s : List Char) : List Char := s.dropWhile isBlank

/-- The text up to its last character that is not blank. -/
def trimEnd (s : List Char) : List Char := (s.reverse.dropWhile isBlank).reverse

/-- The text without the blanks at its ends. -/
def trim (s : List Char) : List Char := trimEnd (trimStart s)

variable {α : Type}

/-- Puts an element in front of the first of some pieces. -/
def consHead (c : α) : List (List α) → List (List α)
  | [] => [[c]]
  | w :: ws => (c :: w) :: ws

/-- The pieces between the elements that satisfy `cut`, which there is always one more of. -/
def splitAt (cut : α → Bool) : List α → List (List α)
  | [] => [[]]
  | c :: s => if cut c then [] :: splitAt cut s else consHead c (splitAt cut s)

/-- The pieces between line feeds. -/
def lines (s : List Char) : List (List Char) := splitAt (· = '\n') s

/-- The longest pieces without a blank. -/
def words (s : List Char) : List (List Char) := (splitAt isBlank s).filter (!·.isEmpty)

theorem mem_of_mem_consHead {c x : α} {w : List α} {ws : List (List α)}
    (hw : w ∈ consHead c ws) (hx : x ∈ w) : x = c ∨ ∃ v ∈ ws, x ∈ v := by
  cases ws with
  | nil =>
    simp only [consHead, List.mem_singleton] at hw
    subst hw
    exact .inl (List.mem_singleton.1 hx)
  | cons v vs =>
    rcases List.mem_cons.1 hw with rfl | hw
    · rcases List.mem_cons.1 hx with rfl | hx
      · exact .inl rfl
      · exact .inr ⟨v, List.mem_cons_self, hx⟩
    · exact .inr ⟨w, List.mem_cons_of_mem _ hw, hx⟩

/-- No piece holds an element it was cut at. -/
theorem not_cut_of_mem_splitAt {cut : α → Bool} {x : α} {w s : List α}
    (hw : w ∈ splitAt cut s) (hx : x ∈ w) : cut x = false := by
  induction s generalizing w x with
  | nil =>
    simp only [splitAt, List.mem_singleton] at hw
    subst hw
    simp at hx
  | cons c s ih =>
    unfold splitAt at hw
    split at hw
    · rcases List.mem_cons.1 hw with rfl | hw
      · simp at hx
      · exact ih hw hx
    · rcases mem_of_mem_consHead hw hx with rfl | ⟨v, hv, hxv⟩
      · simp_all
      · exact ih hv hxv

end Telemetry.Text
