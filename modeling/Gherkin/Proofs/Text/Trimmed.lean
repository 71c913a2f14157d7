import Gherkin.Text.Blank
import Mathlib.Data.List.DropRight

/-!
# Trimmed texts

A text is trimmed if it neither starts nor ends with a character that is to be
dropped.  Trimming makes a text trimmed and leaves a trimmed text as it is, and it
finds a trimmed text again behind any padding.
-/

namespace Gherkin.Text

/-- Neither the first nor the last character satisfies `p`. -/
@[mk_iff]
structure IsTrimmed (p : Char → Bool) (text : Text) : Prop where
  head : ∀ c ∈ text.head?, p c = false
  last : ∀ c ∈ text.getLast?, p c = false

variable {p q : Char → Bool} {text front back : Text}

instance : Decidable (IsTrimmed p text) :=
  decidable_of_iff
    ((text.head?.all fun c => !p c) = true ∧ (text.getLast?.all fun c => !p c) = true)
    (by simp [isTrimmed_iff, Option.all_eq_true])

theorem isTrimmed_singleton {c : Char} (hc : p c = false) : IsTrimmed p [c] := by
  constructor <;> simpa using hc

/-- A trimmed text stays so if something that is not dropped is put behind it. -/
theorem IsTrimmed.append (hfront : front.IsTrimmed p) (hne : front ≠ [])
    (hback : ∀ c ∈ back.getLast?, p c = false) : (front ++ back).IsTrimmed p where
  head := by
    rw [List.head?_append_of_ne_nil _ hne]
    exact hfront.head
  last := by
    rw [List.getLast?_append]
    intro c hc
    rcases Option.or_eq_some_iff.mp hc with hc | ⟨-, hc⟩
    · exact hback c hc
    · exact hfront.last c hc

theorem dropWhile_eq_self (hhead : ∀ c ∈ text.head?, p c = false) :
    text.dropWhile p = text := by
  cases text with
  | nil => rfl
  | cons c text => rw [List.dropWhile_cons_of_neg (by simp [hhead c rfl])]

theorem dropEndWhile_eq_self (hlast : ∀ c ∈ text.getLast?, p c = false) :
    text.dropEndWhile p = text := by
  rw [dropEndWhile, dropWhile_eq_self (by rwa [List.head?_reverse]),
    List.reverse_reverse]

theorem dropEndWhile_append (hback : ∀ c ∈ back, p c = true) (front : Text) :
    (front ++ back).dropEndWhile p = front.dropEndWhile p := by
  rw [dropEndWhile, List.reverse_append,
    List.dropWhile_append_of_pos (by simpa using hback),
    dropEndWhile]

/-- What is to stay at the end keeps everything in front of it. -/
theorem dropEndWhile_append_of_last (hfront : ∀ c ∈ front.getLast?, p c = false)
    (back : Text) : (front ++ back).dropEndWhile p = front ++ back.dropEndWhile p := by
  have hreverse : front.reverse.dropWhile p = front.reverse :=
    dropWhile_eq_self (by rwa [List.head?_reverse])
  rw [dropEndWhile, List.reverse_append, List.dropWhile_append, dropEndWhile]
  split
  · next hempty => simp [hreverse, List.isEmpty_iff.mp hempty]
  · simp

/-- Dropping at the end also drops what was appended, whatever is dropped in
front. -/
theorem dropEndWhile_dropWhile_append (hback : ∀ c ∈ back, q c = true) (front : Text) :
    dropEndWhile q ((front ++ back).dropWhile p) =
      dropEndWhile q (front.dropWhile p) := by
  rw [List.dropWhile_append]
  split
  · next hempty =>
      rw [List.isEmpty_iff.mp hempty]
      exact dropEndWhile_append
        (fun c hc => hback c ((List.dropWhile_suffix p).subset hc)) []
  · exact dropEndWhile_append hback _

theorem dropEndWhile_isPrefix (p : Char → Bool) (text : Text) :
    text.dropEndWhile p <+: text :=
  List.rdropWhile_prefix p text

/-- Dropping at both ends leaves characters of the text. -/
theorem dropEndWhile_dropWhile_subset (p q : Char → Bool) (text : Text) :
    dropEndWhile q (text.dropWhile p) ⊆ text := by
  intro c hc
  have hdrop := (dropEndWhile_isPrefix q (text.dropWhile p)).subset hc
  exact (List.dropWhile_suffix p).subset hdrop

theorem head?_dropWhile (p : Char → Bool) (text : Text) :
    ∀ c ∈ (text.dropWhile p).head?, p c = false := by
  intro c hc
  have hfind := List.head?_dropWhile_not p text
  rw [Option.mem_def.mp hc] at hfind
  simpa using hfind

theorem getLast?_dropEndWhile (p : Char → Bool) (text : Text) :
    ∀ c ∈ (text.dropEndWhile p).getLast?, p c = false := by
  rw [dropEndWhile, List.getLast?_reverse]
  exact head?_dropWhile p text.reverse

theorem head?_of_isPrefix (hstart : front <+: text) :
    ∀ c ∈ front.head?, c ∈ text.head? := by
  obtain ⟨back, rfl⟩ := hstart
  intro c hc
  cases front with
  | nil => cases hc
  | cons first front => exact hc

theorem getLast?_of_isSuffix (hend : back <:+ text) :
    ∀ c ∈ back.getLast?, c ∈ text.getLast? := by
  obtain ⟨front, rfl⟩ := hend
  intro c hc
  rw [List.getLast?_append, Option.mem_def.mp hc]
  rfl

/-! ## Both ends -/

/-- Drops what satisfies `p` at both ends. -/
def trimWhile (p : Char → Bool) (text : Text) : Text :=
  dropEndWhile p (text.dropWhile p)

theorem trim_eq_trimWhile (text : Text) : text.trim = text.trimWhile isWhite := rfl

theorem isTrimmed_trimWhile (p : Char → Bool) (text : Text) :
    (text.trimWhile p).IsTrimmed p where
  head c hc := by
    have hstart := dropEndWhile_isPrefix p (text.dropWhile p)
    exact head?_dropWhile p text c (head?_of_isPrefix hstart c hc)
  last := getLast?_dropEndWhile p (text.dropWhile p)

/-- A trimmed text is found behind any padding. -/
theorem IsTrimmed.trimWhile_pad (htext : text.IsTrimmed p)
    (hfront : ∀ c ∈ front, p c = true)
    (hback : ∀ c ∈ back, p c = true) :
    (front ++ (text ++ back)).trimWhile p = text := by
  rw [trimWhile, List.dropWhile_append_of_pos hfront]
  cases text with
  | nil =>
      rw [List.nil_append, List.dropWhile_eq_nil_iff.mpr hback]
      rfl
  | cons c text =>
      have hhead : ∀ d ∈ (c :: text ++ back).head?, p d = false := htext.head
      rw [dropWhile_eq_self hhead, dropEndWhile_append hback,
        dropEndWhile_eq_self htext.last]

theorem IsTrimmed.trimWhile_eq (htext : text.IsTrimmed p) :
    text.trimWhile p = text := by
  have hpad : trimWhile p ([] ++ (text ++ [])) = text := htext.trimWhile_pad nofun nofun
  rwa [List.nil_append, List.append_nil] at hpad

/-- Behind a trimmed text that is not empty only the end is trimmed. -/
theorem IsTrimmed.trimWhile_append (hfront : front.IsTrimmed p) (hne : front ≠ [])
    (back : Text) : (front ++ back).trimWhile p = front ++ back.dropEndWhile p := by
  have hhead : ∀ c ∈ (front ++ back).head?, p c = false := by
    rw [List.head?_append_of_ne_nil _ hne]
    exact hfront.head
  rw [trimWhile, dropWhile_eq_self hhead]
  exact dropEndWhile_append_of_last hfront.last back

theorem trimWhile_append (hback : ∀ c ∈ back, p c = true) (front : Text) :
    (front ++ back).trimWhile p = front.trimWhile p :=
  dropEndWhile_dropWhile_append hback front

theorem trimWhile_dropEndWhile (p : Char → Bool) (text : Text) :
    (text.dropEndWhile p).trimWhile p = text.trimWhile p := by
  have hback : text.dropEndWhile p ++ text.rtakeWhile p = text :=
    List.rdropWhile_append_rtakeWhile
  conv_rhs => rw [← hback]
  exact (trimWhile_append (fun c hc => List.mem_rtakeWhile_imp hc) _).symm

/-- A text consists of padding and its trimmed part. -/
theorem exists_eq_trimWhile_pad (p : Char → Bool) (text : Text) :
    ∃ front back, text = front ++ (text.trimWhile p ++ back) ∧
      (∀ c ∈ front, p c = true) ∧ ∀ c ∈ back, p c = true := by
  refine ⟨text.takeWhile p, (text.dropWhile p).rtakeWhile p, ?_, ?_, ?_⟩
  · have hback :
        text.trimWhile p ++ (text.dropWhile p).rtakeWhile p = text.dropWhile p :=
      List.rdropWhile_append_rtakeWhile
    rw [hback, List.takeWhile_append_dropWhile]
  · exact fun c hc => List.mem_takeWhile_imp hc
  · exact fun c hc => List.mem_rtakeWhile_imp hc

/-- Nothing is left of padding, and of nothing else. -/
theorem trimWhile_eq_nil_iff : text.trimWhile p = [] ↔ ∀ c ∈ text, p c = true := by
  constructor
  · intro hnil
    obtain ⟨front, back, htext, hfront, hback⟩ := exists_eq_trimWhile_pad p text
    rw [hnil, List.nil_append] at htext
    rw [htext]
    exact List.forall_mem_append.mpr ⟨hfront, hback⟩
  · intro htext
    have hpad : trimWhile p (text ++ ([] ++ [])) = [] :=
      (⟨nofun, nofun⟩ : IsTrimmed p []).trimWhile_pad htext nofun
    rwa [List.append_nil, List.append_nil] at hpad

/-- Only padding in front is lost from a text that ends in what is not white. -/
theorem exists_eq_pad_trim (hlast : ∀ c ∈ text.getLast?, isWhite c = false) :
    ∃ gap, (∀ c ∈ gap, isWhite c = true) ∧ text = gap ++ text.trim := by
  have hend : text.trim = text.dropWhile isWhite := dropEndWhile_eq_self fun c hc =>
    hlast c (getLast?_of_isSuffix (List.dropWhile_suffix isWhite) c hc)
  refine ⟨text.takeWhile isWhite, fun c hc => List.mem_takeWhile_imp hc, ?_⟩
  rw [hend, List.takeWhile_append_dropWhile]

theorem trimWhile_subset (p : Char → Bool) (text : Text) : text.trimWhile p ⊆ text :=
  dropEndWhile_dropWhile_subset p p text

theorem trim_subset (text : Text) : text.trim ⊆ text :=
  trimWhile_subset isWhite text

end Gherkin.Text
