/-! # Nested lists

Words and lists of items in parentheses, with a space between two items. They can be read back in
one way only, whatever comes after them, as long as no word has a space, a newline or a parenthesis
in it.
-/

namespace Script

/-- A run ends where the first character is that cannot be in it. -/
theorem eq_of_run {stops : Char → Bool} {run run' rest rest' : List Char}
    (hRun : ∀ c ∈ run, stops c = false) (hRun' : ∀ c ∈ run', stops c = false)
    (hRest : ∀ c ∈ rest.head?, stops c = true) (hRest' : ∀ c ∈ rest'.head?, stops c = true)
    (h : run ++ rest = run' ++ rest') : run = run' ∧ rest = rest' := by
  induction run generalizing run' with
  | nil =>
    cases run' with
    | nil => exact ⟨rfl, h⟩
    | cons c run' =>
      obtain rfl : rest = c :: (run' ++ rest') := h
      have hStops := hRest c rfl
      rw [hRun' c (List.mem_cons_self ..)] at hStops
      cases hStops
  | cons c run ih =>
    cases run' with
    | nil =>
      obtain rfl : c :: (run ++ rest) = rest' := h
      have hStops := hRest' c rfl
      rw [hRun c (List.mem_cons_self ..)] at hStops
      cases hStops
    | cons c' run' =>
      obtain ⟨rfl, hOthers⟩ := List.cons.inj h
      obtain ⟨rfl, hSame⟩ := ih (fun d hd => hRun d (List.mem_cons_of_mem _ hd))
        (fun d hd => hRun' d (List.mem_cons_of_mem _ hd)) hOthers
      exact ⟨rfl, hSame⟩

inductive Sexp where
  | word (text : List Char)
  | list (items : List Sexp)

namespace Sexp

mutual

def chars : Sexp → List Char
  | word text => text
  | list [] => ['(', ')']
  | list (first :: rest) => '(' :: (first.chars ++ (spaced rest ++ [')']))

/-- Each item after a space. -/
def spaced : List Sexp → List Char
  | [] => []
  | item :: rest => ' ' :: (item.chars ++ spaced rest)

end

/-- Each item after a mark. -/
def marked (mark : Char) (items : List Sexp) : List Char :=
  items.flatMap fun item => mark :: item.chars

theorem spaced_eq_marked (items : List Sexp) : spaced items = marked ' ' items := by
  induction items with
  | nil => rw [spaced, marked, List.flatMap_nil]
  | cons item rest ih => rw [spaced, ih, marked, marked, List.flatMap_cons, List.cons_append]

def separates (c : Char) : Bool :=
  c = ' ' || c = '\n' || c = '(' || c = ')'

theorem separates_of_isDigit {c : Char} (h : c.isDigit = true) : separates c = false := by
  cases hSeparates : separates c with
  | false => rfl
  | true =>
    simp only [separates, Bool.or_eq_true, decide_eq_true_eq] at hSeparates
    rcases hSeparates with ((rfl | rfl) | rfl) | rfl <;> cases h

structure IsWord (text : List Char) : Prop where
  nonempty : text ≠ []
  unbroken : ∀ c ∈ text, separates c = false

theorem isWord_iff {text : List Char} :
    IsWord text ↔ text.isEmpty = false ∧ text.all (fun c => !separates c) = true := by
  constructor
  · rintro ⟨hSome, hUnbroken⟩
    exact ⟨by simpa using hSome, by simpa using hUnbroken⟩
  · rintro ⟨hSome, hAll⟩
    exact ⟨by simpa using hSome, by simpa using hAll⟩

instance (text : List Char) : Decidable (IsWord text) :=
  decidable_of_iff _ isWord_iff.symm

inductive Legible : Sexp → Prop
  | word {text : List Char} (hWord : IsWord text) : Legible (word text)
  | list {items : List Sexp} (hItems : ∀ item ∈ items, Legible item) : Legible (list items)

/-- What may come after an item: a space, a newline or a closing parenthesis. -/
def MayClose (rest : List Char) : Prop :=
  ∀ c ∈ rest.head?, separates c = true ∧ c ≠ '('

/-- Only one legible item can be read at the beginning of a text that begins with this one. -/
def Determined (item : Sexp) : Prop :=
  ∀ {item' : Sexp} {rest rest' : List Char}, item'.Legible → MayClose rest → MayClose rest' →
    item.chars ++ rest = item'.chars ++ rest' → item = item' ∧ rest = rest'

theorem mayClose_cons {c : Char} {rest : List Char} (h : separates c = true ∧ c ≠ '(') :
    MayClose (c :: rest) := by
  intro d hd
  obtain rfl := Option.some.inj hd
  exact h

theorem mayClose_paren (rest : List Char) : MayClose (')' :: rest) :=
  mayClose_cons (by decide)

/-- Items after a mark, followed by something that begins in another way. -/
theorem mayClose_marked {mark : Char} {items : List Sexp} {rest : List Char}
    (hMark : separates mark = true ∧ mark ≠ '(') (hRest : MayClose rest) :
    MayClose (marked mark items ++ rest) := by
  cases items with
  | nil => exact hRest
  | cons item items => exact mayClose_cons hMark

section Words

variable {text text' rest rest' : List Char}

/-- A text without separators ends where the next separator is. -/
theorem eq_of_unbroken (hText : ∀ c ∈ text, separates c = false)
    (hText' : ∀ c ∈ text', separates c = false) (hRest : MayClose rest) (hRest' : MayClose rest')
    (h : text ++ rest = text' ++ rest') : text = text' ∧ rest = rest' :=
  eq_of_run hText hText' (fun c hc => (hRest c hc).1) (fun c hc => (hRest' c hc).1) h

theorem IsWord.exists_cons (h : IsWord text) : ∃ c run, text = c :: run ∧ separates c = false := by
  obtain ⟨c, run, rfl⟩ := List.exists_cons_of_ne_nil h.nonempty
  exact ⟨c, run, rfl, h.unbroken c (List.mem_cons_self ..)⟩

theorem IsWord.append_ne (h : IsWord text) (items : List Sexp) :
    text ++ rest ≠ (list items).chars ++ rest' := by
  obtain ⟨c, run, rfl, hFirst⟩ := h.exists_cons
  intro hSame
  have hParen : c = '(' := by
    cases items <;> simp only [chars, List.cons_append, List.cons.injEq] at hSame <;> exact hSame.1
  subst hParen
  cases hFirst

end Words

/-- A legible item begins with a word or with an opening parenthesis. -/
theorem Legible.exists_cons {item : Sexp} (h : item.Legible) :
    ∃ c run, item.chars = c :: run ∧ (separates c = false ∨ c = '(') := by
  cases h with
  | word hWord =>
    obtain ⟨c, run, hText, hFirst⟩ := hWord.exists_cons
    exact ⟨c, run, by rw [chars, hText], .inl hFirst⟩
  | @list items =>
    cases items with
    | nil => exact ⟨'(', _, by rw [chars], .inr rfl⟩
    | cons first rest => exact ⟨'(', _, by rw [chars], .inr rfl⟩

theorem Legible.not_mayClose {item : Sexp} {rest : List Char} (h : item.Legible) :
    ¬ MayClose (item.chars ++ rest) := by
  obtain ⟨c, run, hText, hFirst⟩ := h.exists_cons
  intro hClose
  rw [hText] at hClose
  obtain ⟨hSeparates, hOther⟩ := hClose c rfl
  rcases hFirst with hFirst | hFirst
  · rw [hFirst] at hSeparates
    cases hSeparates
  · exact hOther hFirst

/-- By induction on the items; each ends before the mark of the next one. -/
theorem marked_determined {mark : Char} {items items' : List Sexp} {rest rest' : List Char}
    (hMark : separates mark = true ∧ mark ≠ '(') (hItems : ∀ item ∈ items, item.Determined)
    (hItems' : ∀ item ∈ items', item.Legible) (hRest : MayClose rest) (hRest' : MayClose rest')
    (hNext : mark ∉ rest.head?) (hNext' : mark ∉ rest'.head?)
    (h : marked mark items ++ rest = marked mark items' ++ rest') :
    items = items' ∧ rest = rest' := by
  induction items generalizing items' with
  | nil =>
    cases items' with
    | nil => exact ⟨rfl, h⟩
    | cons item' items' =>
      obtain rfl : rest = _ := h
      exact absurd rfl hNext
  | cons item items ih =>
    cases items' with
    | nil =>
      obtain rfl : _ = rest' := h
      exact absurd rfl hNext'
    | cons item' items' =>
      obtain ⟨hItem, hOthers⟩ := List.forall_mem_cons.mp hItems
      obtain ⟨hItem', hOthers'⟩ := List.forall_mem_cons.mp hItems'
      have hTail : item.chars ++ (marked mark items ++ rest) =
          item'.chars ++ (marked mark items' ++ rest') := by
        simpa [marked] using h
      obtain ⟨rfl, hLater⟩ := hItem hItem' (mayClose_marked hMark hRest)
        (mayClose_marked hMark hRest') hTail
      obtain ⟨rfl, hSame⟩ := ih hOthers hOthers' hLater
      exact ⟨rfl, hSame⟩

/-- The items of a list, from the first one on to its closing parenthesis. -/
theorem list_determined {items : List Sexp} (hLegible : ∀ item ∈ items, item.Legible)
    (hItems : ∀ item ∈ items, item.Determined) : (list items).Determined := by
  intro item' rest rest' hItem' hRest hRest' h
  cases hItem' with
  | word hWord =>
    rw [chars] at h
    exact absurd h.symm (hWord.append_ne items)
  | @list items' hLegible' =>
    cases items with
    | nil =>
      cases items' with
      | nil =>
        simp only [chars, List.cons_append, List.cons.injEq, true_and, List.nil_append] at h
        exact ⟨rfl, h⟩
      | cons first' items' =>
        simp only [chars, List.cons_append, List.cons.injEq, true_and, List.nil_append,
          List.append_assoc] at h
        have hFirst' := hLegible' first' (List.mem_cons_self ..)
        exact absurd (h ▸ mayClose_paren rest) hFirst'.not_mayClose
    | cons first items =>
      cases items' with
      | nil =>
        simp only [chars, List.cons_append, List.cons.injEq, true_and, List.nil_append,
          List.append_assoc] at h
        have hFirst := hLegible first (List.mem_cons_self ..)
        exact absurd (h ▸ mayClose_paren rest') hFirst.not_mayClose
      | cons first' items' =>
        obtain ⟨hFirst, hOthers⟩ := List.forall_mem_cons.mp hItems
        obtain ⟨hFirst', hOthers'⟩ := List.forall_mem_cons.mp hLegible'
        have hSpace : separates ' ' = true ∧ ' ' ≠ '(' := by decide
        simp only [chars, List.cons_append, List.cons.injEq, true_and, List.nil_append,
          List.append_assoc, spaced_eq_marked] at h
        obtain ⟨rfl, hLater⟩ := hFirst hFirst' (mayClose_marked hSpace (mayClose_paren rest))
          (mayClose_marked hSpace (mayClose_paren rest')) h
        obtain ⟨rfl, hSame⟩ := marked_determined hSpace hOthers hOthers' (mayClose_paren rest)
          (mayClose_paren rest') (by simp) (by simp) hLater
        exact ⟨rfl, List.tail_eq_of_cons_eq hSame⟩

theorem Legible.determined {item : Sexp} (h : item.Legible) : item.Determined := by
  induction h with
  | word hWord =>
    intro item' rest rest' hItem' hRest hRest' h
    cases hItem' with
    | word hWord' =>
      simp only [chars] at h
      obtain ⟨rfl, hSame⟩ := eq_of_unbroken hWord.unbroken hWord'.unbroken hRest hRest' h
      exact ⟨rfl, hSame⟩
    | @list items' _ =>
      rw [chars] at h
      exact absurd h (hWord.append_ne items')
  | list hItems ih => exact list_determined hItems fun item hItem => ih item hItem

/-- Items with marks between them, with one more mark before the first item. -/
theorem marked_cons (mark : Char) (first : Sexp) (items : List Sexp) :
    marked mark (first :: items) = mark :: [mark].intercalate ((first :: items).map chars) := by
  induction items generalizing first with
  | nil => simp [marked]
  | cons second items ih =>
    have hLater : marked mark (first :: second :: items) =
        mark :: (first.chars ++ marked mark (second :: items)) := by simp [marked]
    rw [hLater, ih]
    simp [List.intercalate_cons_cons]

/-- Items on lines of their own. -/
theorem eq_of_lines {items items' : List Sexp} (hItems : ∀ item ∈ items, item.Legible)
    (hItems' : ∀ item ∈ items', item.Legible)
    (h : ['\n'].intercalate (items.map chars) = ['\n'].intercalate (items'.map chars)) :
    items = items' := by
  have hNothing : MayClose [] := by simp [MayClose]
  have hDetermined : ∀ item ∈ items, item.Determined := fun item hItem =>
    (hItems item hItem).determined
  have hSome : ∀ {first : Sexp} {rest : List Sexp}, first.Legible →
      ['\n'].intercalate ((first :: rest).map chars) ≠ [] := by
    intro first rest hFirst
    obtain ⟨c, run, hText, _⟩ := hFirst.exists_cons
    cases rest <;> simp [hText]
  cases items with
  | nil =>
    cases items' with
    | nil => rfl
    | cons first' rest' => exact absurd h.symm (hSome (hItems' first' (List.mem_cons_self ..)))
  | cons first rest =>
    cases items' with
    | nil => exact absurd h (hSome (hItems first (List.mem_cons_self ..)))
    | cons first' rest' =>
      have hMarked : marked '\n' (first :: rest) ++ [] = marked '\n' (first' :: rest') ++ [] := by
        rw [marked_cons, marked_cons, h]
      exact (marked_determined (by decide) hDetermined hItems' hNothing hNothing (by simp)
        (by simp) hMarked).1

end Sexp

end Script
