import Mathlib.Data.List.TakeWhile
import Telemetry.Text.Blank

/-!
# Cutting texts

A run of characters that is followed by one of another class, or by nothing, is
taken and dropped as a whole.  Pieces that hold no separator are what a text made of
them is cut into again, and a text that neither begins nor ends with a blank is not
changed by trimming.
-/

namespace Telemetry.Text

/-- What is said of every character of a text is decided along the text, whatever way
there is to decide it along all the characters there are. -/
instance decidableForallMem {p : Char → Prop} [DecidablePred p] (s : List Char) :
    Decidable (∀ c ∈ s, p c) :=
  List.decidableBAll p s

variable {α : Type}

/-! ### Runs -/

theorem takeWhile_append_stop {p : α → Bool} {run rest : List α} (all : ∀ x ∈ run, p x = true)
    (stop : rest.head?.any p = false) : (run ++ rest).takeWhile p = run := by
  rw [List.takeWhile_append_of_pos all]
  cases rest with
  | nil => rw [List.takeWhile_nil, List.append_nil]
  | cons c rest => rw [List.takeWhile_cons, if_neg (by simpa using stop), List.append_nil]

theorem dropWhile_append_stop {p : α → Bool} {run rest : List α} (all : ∀ x ∈ run, p x = true)
    (stop : rest.head?.any p = false) : (run ++ rest).dropWhile p = rest := by
  rw [List.dropWhile_append_of_pos all]
  cases rest with
  | nil => rfl
  | cons c rest => rw [List.dropWhile_cons, if_neg (by simpa using stop)]

/-- What is left when a run is dropped does not go on with it. -/
theorem head?_dropWhile_stop (p : α → Bool) (s : List α) :
    (s.dropWhile p).head?.any p = false := by
  have stop := List.head?_dropWhile_not p s
  cases head : (s.dropWhile p).head? with
  | none => rfl
  | some c =>
      rw [head] at stop
      exact stop

theorem drop_length_takeWhile (p : α → Bool) :
    ∀ s : List α, s.drop (s.takeWhile p).length = s.dropWhile p
  | [] => rfl
  | c :: s => by
      rw [List.takeWhile_cons, List.dropWhile_cons]
      cases p c with
      | true => exact drop_length_takeWhile p s
      | false => rfl

/-! ### Pieces -/

theorem splitAt_eq_splitOnP (cut : α → Bool) : ∀ s : List α, splitAt cut s = s.splitOnP cut
  | [] => List.splitOnP_nil.symm
  | c :: s => by
      rw [splitAt, splitAt_eq_splitOnP cut s, List.splitOnP_cons_eq_if_modifyHead]
      cases pieces : s.splitOnP cut with
      | nil => exact absurd pieces (List.splitOnP_ne_nil cut s)
      | cons piece pieces => rfl

theorem splitAt_of_none {cut : α → Bool} {s : List α} (whole : ∀ x ∈ s, cut x = false) :
    splitAt cut s = [s] := by
  rw [splitAt_eq_splitOnP, List.splitOnP_eq_singleton whole]

theorem splitAt_append {cut : α → Bool} {c : α} (separates : cut c = true) (s rest : List α) :
    splitAt cut (s ++ c :: rest) = splitAt cut s ++ splitAt cut rest := by
  simp only [splitAt_eq_splitOnP]
  exact List.splitOnP_append_cons s rest separates

theorem splitAt_append_cons {cut : α → Bool} {c : α} (separates : cut c = true) (rest : List α)
    {piece : List α} (whole : ∀ x ∈ piece, cut x = false) :
    splitAt cut (piece ++ c :: rest) = piece :: splitAt cut rest := by
  rw [splitAt_append separates, splitAt_of_none whole, List.singleton_append]

/-- Pieces that are joined by separators are the pieces of the result. -/
theorem splitAt_intercalate {cut : α → Bool} {c : α} (separates : cut c = true) :
    ∀ {pieces : List (List α)}, pieces ≠ [] → (∀ piece ∈ pieces, ∀ x ∈ piece, cut x = false) →
      splitAt cut (List.intercalate [c] pieces) = pieces
  | [], nonempty, _ => absurd rfl nonempty
  | [piece], _, whole => by
      rw [List.intercalate_singleton]
      exact splitAt_of_none (whole piece List.mem_cons_self)
  | piece :: next :: pieces, _, whole => by
      rw [List.intercalate_cons_cons, List.append_assoc, List.singleton_append,
        splitAt_append_cons separates _ (whole piece List.mem_cons_self),
        splitAt_intercalate separates (List.cons_ne_nil _ _)
          fun p there => whole p (List.mem_cons_of_mem _ there)]

theorem mem_intercalate {c x : α} :
    ∀ {pieces : List (List α)}, x ∈ List.intercalate [c] pieces → x = c ∨ ∃ p ∈ pieces, x ∈ p
  | [], there => nomatch there
  | [piece], there => by
      rw [List.intercalate_singleton] at there
      exact .inr ⟨piece, List.mem_cons_self, there⟩
  | piece :: next :: pieces, there => by
      rw [List.intercalate_cons_cons, List.append_assoc, List.mem_append, List.singleton_append,
        List.mem_cons] at there
      rcases there with there | rfl | there
      · exact .inr ⟨piece, List.mem_cons_self, there⟩
      · exact .inl rfl
      · obtain rfl | ⟨p, among, there⟩ := mem_intercalate there
        · exact .inl rfl
        · exact .inr ⟨p, List.mem_cons_of_mem _ among, there⟩

/-- Pieces that are each ended by a separator are the pieces of the result, before an empty one. -/
theorem splitAt_flatMap {cut : α → Bool} {c : α} (separates : cut c = true) :
    ∀ {pieces : List (List α)}, (∀ piece ∈ pieces, ∀ x ∈ piece, cut x = false) →
      splitAt cut (pieces.flatMap (· ++ [c])) = pieces ++ [[]]
  | [], _ => rfl
  | piece :: pieces, whole => by
      rw [List.flatMap_cons, List.append_assoc, List.singleton_append,
        splitAt_append_cons separates _ (whole piece List.mem_cons_self),
        splitAt_flatMap separates fun p there => whole p (List.mem_cons_of_mem _ there)]
      rfl

/-! ### Blanks -/

theorem trimStart_of_head {s : List Char} (start : s.head?.any isBlank = false) :
    trimStart s = s := by
  have none_ : ∀ x ∈ ([] : List Char), isBlank x = true := fun _ there => nomatch there
  exact dropWhile_append_stop none_ start

theorem trimStart_cons_of_blank {c : Char} (blank : isBlank c = true) (s : List Char) :
    trimStart (c :: s) = trimStart s :=
  List.dropWhile_cons_of_pos blank

theorem trimEnd_of_getLast {s : List Char} (last : s.getLast?.any isBlank = false) :
    trimEnd s = s := by
  unfold trimEnd
  rw [← List.head?_reverse] at last
  exact (congrArg List.reverse (trimStart_of_head last)).trans s.reverse_reverse

theorem trim_of_ends {s : List Char} (start : s.head?.any isBlank = false)
    (last : s.getLast?.any isBlank = false) : trim s = s := by
  rw [trim, trimStart_of_head start, trimEnd_of_getLast last]

/-- A text without blanks is one word. -/
theorem words_of_word {s : List Char} (nonempty : s ≠ []) (whole : ∀ c ∈ s, isBlank c = false) :
    words s = [s] := by
  rw [words, splitAt_of_none whole]
  exact List.filter_cons_of_pos (by simpa using nonempty)

theorem words_cons_of_blank {c : Char} (blank : isBlank c = true) (s : List Char) :
    words (c :: s) = words s := by
  rw [words, splitAt, if_pos blank]
  exact List.filter_cons_of_neg (by decide)

theorem words_append_of_blanks (s : List Char) :
    ∀ {blanks : List Char}, (∀ c ∈ blanks, isBlank c = true) → words (blanks ++ s) = words s
  | [], _ => rfl
  | c :: blanks, all => by
      rw [List.cons_append, words_cons_of_blank (all c List.mem_cons_self),
        words_append_of_blanks s fun c' there => all c' (List.mem_cons_of_mem c there)]

/-- A word that is followed by a blank is the first one. -/
theorem words_append_cons {word : List Char} (nonempty : word ≠ [])
    (whole : ∀ c ∈ word, isBlank c = false) {blank : Char} (ends : isBlank blank = true)
    (rest : List Char) : words (word ++ blank :: rest) = word :: words rest := by
  rw [words, splitAt_append_cons ends rest whole]
  exact List.filter_cons_of_pos (by simpa using nonempty)

/-- A text that has words is blanks, its first word, and what the others are the words of. -/
theorem exists_words_cons {s word : List Char} {others : List (List Char)}
    (cut : words s = word :: others) : ∃ blanks rest, s = blanks ++ (word ++ rest) ∧
      (∀ c ∈ blanks, isBlank c = true) ∧ word ≠ [] ∧ (∀ c ∈ word, isBlank c = false) ∧
      (rest = [] ∨ ∃ c more, rest = c :: more ∧ isBlank c = true) ∧ words rest = others := by
  have blank : ∀ c ∈ s.takeWhile isBlank, isBlank c = true := fun c there =>
    List.mem_takeWhile_imp there
  have split : s.takeWhile isBlank ++ trimStart s = s := List.takeWhile_append_dropWhile
  have start := head?_dropWhile_stop isBlank s
  rw [← split, words_append_of_blanks _ blank] at cut
  generalize s.takeWhile isBlank = blanks at blank split
  rw [← show trimStart s = s.dropWhile isBlank from rfl] at start
  generalize trimStart s = t at cut split start
  subst split
  have whole : ∀ c ∈ t.takeWhile (!isBlank ·), isBlank c = false := fun c there => by
    simpa using List.mem_takeWhile_imp there
  have parts : t.takeWhile (!isBlank ·) ++ t.dropWhile (!isBlank ·) = t :=
    List.takeWhile_append_dropWhile
  have stop := head?_dropWhile_stop (!isBlank ·) t
  have given : t.takeWhile (!isBlank ·) ≠ [] := by
    cases t with
    | nil => cases cut
    | cons c t =>
        have first : isBlank c = false := start
        rw [List.takeWhile_cons, first]
        exact List.cons_ne_nil c _
  generalize t.takeWhile (!isBlank ·) = first at whole parts given
  generalize t.dropWhile (!isBlank ·) = rest at parts stop
  subst parts
  cases rest with
  | nil =>
      rw [List.append_nil, words_of_word given whole] at cut
      cases cut
      exact ⟨blanks, [], rfl, blank, given, whole, .inl rfl, rfl⟩
  | cons c rest =>
      have ends : isBlank c = true := by simpa using stop
      rw [words_append_cons given whole ends] at cut
      cases cut
      exact ⟨blanks, c :: rest, rfl, blank, given, whole, .inr ⟨c, rest, rfl, ends⟩,
        words_cons_of_blank ends rest⟩

/-- A text without words has blanks only. -/
theorem isBlank_of_words : ∀ {s : List Char}, words s = [] → ∀ c ∈ s, isBlank c = true
  | [], _ => fun _ there => nomatch there
  | c :: s, none_ => by
      cases blank : isBlank c with
      | true =>
          rw [words_cons_of_blank blank] at none_
          exact List.forall_mem_cons.mpr ⟨blank, isBlank_of_words none_⟩
      | false =>
          rw [words, splitAt, if_neg (by rw [blank]; decide)] at none_
          cases pieces : splitAt isBlank s with
          | nil =>
              rw [pieces] at none_
              cases none_
          | cons piece pieces =>
              rw [pieces] at none_
              cases none_

/-- What ends without a blank and has no words is empty. -/
theorem eq_nil_of_words {s : List Char} (none_ : words s = [])
    (last : s.getLast?.any isBlank = false) : s = [] := by
  cases ends : s.getLast? with
  | none => exact List.getLast?_eq_none_iff.mp ends
  | some c =>
      rw [ends, Option.any_some, isBlank_of_words none_ c (List.mem_of_getLast? ends)] at last
      cases last

theorem getLast?_trim (s : List Char) : (trim s).getLast?.any isBlank = false := by
  rw [trim, trimEnd, List.getLast?_reverse]
  exact head?_dropWhile_stop isBlank _

theorem head?_trim (s : List Char) : (trim s).head?.any isBlank = false := by
  have front : trim s <+: trimStart s := by
    rw [← List.reverse_suffix, trim, trimEnd, List.reverse_reverse]
    exact List.dropWhile_suffix _
  have start := head?_dropWhile_stop isBlank s
  obtain ⟨rest, whole⟩ := front
  cases trimmed : trim s with
  | nil => rfl
  | cons c t =>
      rw [trimStart, trimmed] at whole
      rwa [← whole] at start

theorem trim_trim (s : List Char) : trim (trim s) = trim s :=
  trim_of_ends (head?_trim s) (getLast?_trim s)

/-- What is behind something else ends as the whole does. -/
theorem getLast?_of_append {front s : List Char}
    (last : (front ++ s).getLast?.any isBlank = false) : s.getLast?.any isBlank = false := by
  rw [List.getLast?_append] at last
  cases ends : s.getLast? with
  | none => rfl
  | some c =>
      rw [ends] at last
      exact last

theorem trimStart_append_of_blanks {blanks s : List Char} (all : ∀ c ∈ blanks, isBlank c = true)
    (start : s.head?.any isBlank = false) : trimStart (blanks ++ s) = s :=
  dropWhile_append_stop all start

end Telemetry.Text
