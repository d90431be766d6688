import Mathlib
import Gatehouse.Text.Fields
/-!
# Taking joined texts apart

Texts that are joined by a character that is in none of them come apart into the same texts
(`fields_join`), and the first separator, or the first double one, is found where it was put
(`splitFirst_append`, `splitDoubled_join`). What comes apart is the whole text (`join_fields`,
`splitFirst_eq_some_iff`, `splitDoubled_eq_some`), and trimming takes away the blanks at its ends
and nothing else (`trim_eq_iff`).
-/

namespace Gatehouse.Text

variable {separator : Char}

/-! ## Fields -/

theorem fields_ne_nil (separator : Char) (cs : List Char) : fields separator cs ≠ [] := by
  cases cs with
  | nil => simp [fields]
  | cons c cs =>
      rw [fields]
      split
      · simp
      · split <;> simp

/-- A character that is no separator belongs to the first field. -/
theorem fields_cons_of_ne {c : Char} (other : c ≠ separator) (cs : List Char) :
    ∃ field more, fields separator cs = field :: more ∧
      fields separator (c :: cs) = (c :: field) :: more := by
  obtain ⟨field, more, hfields⟩ := List.exists_cons_of_ne_nil (fields_ne_nil separator cs)
  refine ⟨field, more, hfields, ?_⟩
  rw [fields, if_neg other, hfields]

/-- A text without separators is one field. -/
theorem fields_plain {cs : List Char} (plain : separator ∉ cs) : fields separator cs = [cs] := by
  induction cs with
  | nil => rfl
  | cons c cs ih =>
      rw [List.mem_cons, not_or] at plain
      obtain ⟨hne, hplain⟩ := plain
      rw [fields, if_neg (Ne.symm hne), ih hplain]

theorem fields_append {field : List Char} (plain : separator ∉ field) (rest : List Char) :
    fields separator (field ++ separator :: rest) = field :: fields separator rest := by
  induction field with
  | nil => rw [List.nil_append, fields, if_pos rfl]
  | cons c cs ih =>
      rw [List.mem_cons, not_or] at plain
      obtain ⟨hne, hplain⟩ := plain
      rw [List.cons_append, fields, if_neg (Ne.symm hne), ih hplain]

theorem join_cons_of_ne_nil (glue piece : List Char) {more : List (List Char)} (ne : more ≠ []) :
    join glue (piece :: more) = piece ++ glue ++ join glue more := by
  cases more with
  | nil => exact absurd rfl ne
  | cons next more => rfl

/-- What is joined consists of the texts and of separators. -/
theorem mem_join {c : Char} {pieces : List (List Char)} (mem : c ∈ join [separator] pieces) :
    c = separator ∨ ∃ piece ∈ pieces, c ∈ piece := by
  induction pieces with
  | nil => cases mem
  | cons piece more ih =>
      by_cases hmore : more = []
      · subst hmore
        exact .inr ⟨piece, List.mem_cons_self, mem⟩
      · rw [join_cons_of_ne_nil _ _ hmore, List.mem_append, List.mem_append,
          List.mem_singleton] at mem
        rcases mem with (hpiece | hglue) | hrest
        · exact .inr ⟨piece, List.mem_cons_self, hpiece⟩
        · exact .inl hglue
        · rcases ih hrest with hglue | ⟨other, hother, hc⟩
          · exact .inl hglue
          · exact .inr ⟨other, List.mem_cons_of_mem _ hother, hc⟩

/-- **Joined texts come apart again.** -/
theorem fields_join {pieces : List (List Char)} (ne : pieces ≠ [])
    (plain : ∀ piece ∈ pieces, separator ∉ piece) :
    fields separator (join [separator] pieces) = pieces := by
  induction pieces with
  | nil => exact absurd rfl ne
  | cons piece more ih =>
      rw [List.forall_mem_cons] at plain
      by_cases hmore : more = []
      · subst hmore
        exact fields_plain plain.1
      · rw [join_cons_of_ne_nil _ _ hmore, List.append_assoc, List.singleton_append,
          fields_append plain.1, ih hmore plain.2]

/-- The fields of a text are the texts it joins. -/
theorem join_fields (separator : Char) (cs : List Char) :
    join [separator] (fields separator cs) = cs := by
  induction cs with
  | nil => rfl
  | cons c cs ih =>
      by_cases hc : c = separator
      · subst hc
        rw [fields, if_pos rfl, join_cons_of_ne_nil _ _ (fields_ne_nil _ _), ih]
        rfl
      · obtain ⟨field, more, hcs, hfields⟩ := fields_cons_of_ne hc cs
        rw [hfields]
        rw [hcs] at ih
        by_cases hmore : more = []
        · subst hmore
          exact congrArg (c :: ·) ih
        · rw [join_cons_of_ne_nil _ _ hmore] at ih ⊢
          exact congrArg (c :: ·) ih

/-! ## Single and double separators -/

theorem splitFirst_append {before : List Char} (plain : separator ∉ before) (after : List Char) :
    splitFirst separator (before ++ separator :: after) = some (before, after) := by
  induction before with
  | nil => rw [List.nil_append, splitFirst, if_pos rfl]
  | cons c cs ih =>
      rw [List.mem_cons, not_or] at plain
      obtain ⟨hne, hplain⟩ := plain
      rw [List.cons_append, splitFirst, if_neg (Ne.symm hne), ih hplain]
      rfl

theorem splitFirst_eq_none_iff {cs : List Char} :
    splitFirst separator cs = none ↔ separator ∉ cs := by
  induction cs with
  | nil => simp [splitFirst]
  | cons c cs ih =>
      rw [splitFirst, List.mem_cons, not_or]
      by_cases hc : c = separator
      · simp [hc]
      · simp [hc, ih, Ne.symm hc]

theorem splitFirst_eq_some_iff {cs before after : List Char} :
    splitFirst separator cs = some (before, after) ↔
      cs = before ++ separator :: after ∧ separator ∉ before := by
  constructor
  · intro h
    induction cs generalizing before with
    | nil => cases h
    | cons c cs ih =>
        rw [splitFirst] at h
        split at h
        · rename_i hc
          simp only [Option.some.injEq, Prod.mk.injEq] at h
          obtain ⟨rfl, rfl⟩ := h
          simp [hc]
        · rename_i hc
          obtain ⟨⟨before', after'⟩, hsplit, heq⟩ := Option.map_eq_some_iff.mp h
          simp only [Prod.mk.injEq] at heq
          obtain ⟨rfl, rfl⟩ := heq
          obtain ⟨rfl, hplain⟩ := ih hsplit
          simp [hplain, Ne.symm hc]
  · rintro ⟨rfl, plain⟩
    exact splitFirst_append plain after

/-- What stands before a text moves into the first part. -/
def prepend (front : List Char) (parts : List Char × List Char) : List Char × List Char :=
  (front ++ parts.1, parts.2)

theorem splitDoubled_cons_of_ne {c : Char} (other : c ≠ separator) (cs : List Char) :
    splitDoubled separator (c :: cs) = (splitDoubled separator cs).map (prepend [c]) := by
  rw [splitDoubled]
  · rfl
  · simp [other]

/-- A separator that none follows is passed over. -/
theorem splitDoubled_single {d : Char} (other : d ≠ separator) (ds : List Char) :
    splitDoubled separator (separator :: d :: ds) =
      (splitDoubled separator (d :: ds)).map (prepend [separator]) := by
  rw [splitDoubled, if_neg other]
  · rfl
  · exact beq_self_eq_true separator

theorem map_prepend_prepend (front front' : List Char)
    (parts : Option (List Char × List Char)) :
    (parts.map (prepend front')).map (prepend front) = parts.map (prepend (front ++ front')) := by
  cases parts with
  | none => rfl
  | some parts => simp [prepend]

theorem splitDoubled_append {front : List Char} (plain : separator ∉ front) (rest : List Char) :
    splitDoubled separator (front ++ rest) =
      (splitDoubled separator rest).map (prepend front) := by
  induction front with
  | nil =>
      rw [List.nil_append]
      cases splitDoubled separator rest <;> rfl
  | cons c cs ih =>
      rw [List.mem_cons, not_or] at plain
      obtain ⟨hne, hplain⟩ := plain
      rw [List.cons_append, splitDoubled_cons_of_ne (Ne.symm hne), ih hplain,
        map_prepend_prepend]
      rfl

/-- Joining texts that are not empty doubles no separator. -/
theorem splitDoubled_join_append {pieces : List (List Char)}
    (plain : ∀ piece ∈ pieces, separator ∉ piece) (full : ∀ piece ∈ pieces, piece ≠ [])
    (rest : List Char) :
    splitDoubled separator (join [separator] pieces ++ rest) =
      (splitDoubled separator rest).map (prepend (join [separator] pieces)) := by
  induction pieces with
  | nil => exact splitDoubled_append List.not_mem_nil rest
  | cons piece more ih =>
      rw [List.forall_mem_cons] at plain full
      by_cases hmore : more = []
      · subst hmore
        exact splitDoubled_append plain.1 rest
      · -- The separator after the first text is followed by the first character of the second.
        obtain ⟨next, others, rfl⟩ := List.exists_cons_of_ne_nil hmore
        obtain ⟨d, ds, hnext⟩ := List.exists_cons_of_ne_nil (full.2 next List.mem_cons_self)
        obtain ⟨tail, htail⟩ : ∃ tail, join [separator] (next :: others) = d :: tail := by
          by_cases hothers : others = []
          · subst hothers
            exact ⟨ds, hnext⟩
          · exact ⟨_, by rw [join_cons_of_ne_nil _ _ hothers, hnext]; rfl⟩
        have hd : d ≠ separator := by
          rintro rfl
          exact plain.2 next List.mem_cons_self (by rw [hnext]; exact List.mem_cons_self)
        have hsingle : splitDoubled separator
            (separator :: (join [separator] (next :: others) ++ rest)) =
              (splitDoubled separator (join [separator] (next :: others) ++ rest)).map
                (prepend [separator]) := by
          rw [htail]
          exact splitDoubled_single hd _
        rw [join_cons_of_ne_nil _ _ hmore, List.append_assoc, List.append_assoc,
          List.singleton_append, splitDoubled_append plain.1, hsingle, ih plain.2 full.2,
          map_prepend_prepend, map_prepend_prepend]

theorem splitDoubled_join {pieces : List (List Char)}
    (plain : ∀ piece ∈ pieces, separator ∉ piece) (full : ∀ piece ∈ pieces, piece ≠ []) :
    splitDoubled separator (join [separator] pieces) = none := by
  have h := splitDoubled_join_append plain full []
  rwa [List.append_nil] at h

/-- **The double separator after joined texts is the first.** -/
theorem splitDoubled_join_doubled {pieces : List (List Char)}
    (plain : ∀ piece ∈ pieces, separator ∉ piece) (full : ∀ piece ∈ pieces, piece ≠ [])
    (rest : List Char) :
    splitDoubled separator (join [separator] pieces ++ separator :: separator :: rest) =
      some (join [separator] pieces, rest) := by
  have hfirst : splitDoubled separator (separator :: separator :: rest) = some ([], rest) := by
    rw [splitDoubled, if_pos rfl]
    exact beq_self_eq_true separator
  rw [splitDoubled_join_append plain full, hfirst]
  simp [prepend]

/-- What is found around a double separator is the text. -/
theorem splitDoubled_eq_some {cs before after : List Char}
    (h : splitDoubled separator cs = some (before, after)) :
    cs = before ++ separator :: separator :: after := by
  induction cs generalizing before with
  | nil => cases h
  | cons c cs ih =>
      have hlater : (splitDoubled separator cs).map (prepend [c]) = some (before, after) →
          c :: cs = before ++ separator :: separator :: after := by
        intro hmap
        obtain ⟨⟨before', after'⟩, hsplit, heq⟩ := Option.map_eq_some_iff.mp hmap
        simp only [prepend, Prod.mk.injEq] at heq
        obtain ⟨rfl, rfl⟩ := heq
        rw [ih hsplit]
        rfl
      by_cases hc : c = separator
      · subst hc
        cases cs with
        | nil => simp [splitDoubled] at h
        | cons d ds =>
            by_cases hd : d = c
            · subst hd
              rw [splitDoubled, if_pos rfl] at h
              · simp only [Option.some.injEq, Prod.mk.injEq] at h
                obtain ⟨rfl, rfl⟩ := h
                rfl
              · exact beq_self_eq_true d
            · rw [splitDoubled_single hd] at h
              exact hlater h
      · rw [splitDoubled_cons_of_ne hc] at h
        exact hlater h

/-! ## Blanks -/

/-- What is left of a text without the blanks at its two ends. -/
structure Trimmed (cs core : List Char) : Prop where
  /-- the text has blanks around what is left -/
  around : ∃ before after, cs = before ++ core ++ after ∧ ∀ c ∈ before ++ after, isBlank c = true
  first : ∀ c, core.head? = some c → isBlank c = false
  last : ∀ c, core.getLast? = some c → isBlank c = false

/-- Of a text, just what satisfies a test goes from the front. -/
theorem dropWhile_front {test : Char → Bool} {front rest : List Char}
    (goes : ∀ c ∈ front, test c = true) (stays : ∀ c, rest.head? = some c → test c = false) :
    (front ++ rest).dropWhile test = rest := by
  rw [List.dropWhile_append_of_pos goes]
  cases rest with
  | nil => rfl
  | cons c cs => rw [List.dropWhile_cons_of_neg (by simp [stays c rfl])]

theorem head?_dropWhile {test : Char → Bool} {cs : List Char} {c : Char}
    (head : (cs.dropWhile test).head? = some c) : test c = false := by
  have h := List.head?_dropWhile_not test cs
  rwa [head] at h

theorem trim_trimmed (cs : List Char) : Trimmed cs (trim cs) := by
  -- What goes from the front, and what goes from the end of the rest, turned round.
  set rest := cs.dropWhile isBlank with hrest
  set back := rest.reverse.takeWhile isBlank with hback
  have hfront : cs.takeWhile isBlank ++ rest = cs := List.takeWhile_append_dropWhile
  have hend : trim cs ++ back.reverse = rest := by
    have h : back ++ rest.reverse.dropWhile isBlank = rest.reverse :=
      List.takeWhile_append_dropWhile
    rw [← List.reverse_inj, List.reverse_append, List.reverse_reverse, trim,
      List.reverse_reverse]
    exact h
  refine ⟨⟨cs.takeWhile isBlank, back.reverse, ?_, ?_⟩, ?_, ?_⟩
  · rw [List.append_assoc, hend, hfront]
  · intro c mem
    rcases List.mem_append.mp mem with h | h
    · exact List.mem_takeWhile_imp h
    · exact List.mem_takeWhile_imp (List.mem_reverse.mp h)
  · intro c head
    have hrestHead : rest.head? = some c := by
      rw [← hend, List.head?_append, head, Option.some_or]
    exact head?_dropWhile hrestHead
  · intro c last
    rw [trim, List.getLast?_reverse] at last
    exact head?_dropWhile last

/-- **Trimming leaves what is left without the blanks at the ends.** -/
theorem trim_eq_iff {cs core : List Char} : trim cs = core ↔ Trimmed cs core := by
  constructor
  · rintro rfl
    exact trim_trimmed cs
  · rintro ⟨⟨before, after, rfl, blank⟩, first, last⟩
    rw [List.forall_mem_append] at blank
    by_cases hcore : core = []
    · subst hcore
      have hall : (before ++ [] ++ after).dropWhile isBlank = [] := by
        rw [List.append_nil, List.dropWhile_append_of_pos blank.1, List.dropWhile_eq_nil_iff]
        exact blank.2
      rw [trim, hall]
      rfl
    · have hfront : (before ++ core ++ after).dropWhile isBlank = core ++ after := by
        rw [List.append_assoc]
        apply dropWhile_front blank.1
        intro c head
        rw [List.head?_append_of_ne_nil _ hcore] at head
        exact first c head
      have hend : (core ++ after).reverse.dropWhile isBlank = core.reverse := by
        rw [List.reverse_append]
        apply dropWhile_front
        · intro c mem
          exact blank.2 c (List.mem_reverse.mp mem)
        · intro c head
          rw [List.head?_reverse] at head
          exact last c head
      rw [trim, hfront, hend, List.reverse_reverse]

/-- There is nothing to trim from a text without blanks. -/
theorem trimmed_self {cs : List Char} (solid : ∀ c ∈ cs, isBlank c = false) : Trimmed cs cs := by
  refine ⟨⟨[], [], by simp, by simp⟩, ?_, ?_⟩
  · intro c head
    exact solid c (List.mem_of_head? head)
  · intro c last
    exact solid c (List.mem_of_getLast? last)

end Gatehouse.Text
