/-
The pieces of a template.

A text falls into pieces, which are its references and the characters between them.  The
references of a text cannot overlap: a dollar sign starts one, and there is none inside.  So
the pieces make up the text again, and the names that a text refers to are those of its
pieces, in the same order.
-/
import Mathlib
import Rewards.Parameters.Template

namespace Rewards.Template

/-! ### Names and references -/

/-- A name that a variable can be referred to by. -/
structure IsName (name : List Char) : Prop where
  ne_nil : name ≠ []
  head : ∀ c ∈ name.head?, isNameStart c = true
  all : ∀ c ∈ name, isNameChar c = true

variable {name other text rest value : List Char}

theorem isNameChar_of_isNameStart {c : Char} (h : isNameStart c = true) : isNameChar c = true := by
  rw [isNameChar, h]
  rfl

/-- A name has neither of the characters around it. -/
theorem IsName.not_mem (h : IsName name) {c : Char} (hc : isNameChar c = false) : c ∉ name := by
  intro hmem
  rw [h.all c hmem] at hc
  cases hc

theorem takeWhile_name (h : ∀ c ∈ name, isNameChar c = true) (rest : List Char) :
    (name ++ '\x7d' :: rest).takeWhile isNameChar = name ∧
      (name ++ '\x7d' :: rest).dropWhile isNameChar = '\x7d' :: rest := by
  rw [List.takeWhile_append_of_pos h, List.dropWhile_append_of_pos h,
    List.takeWhile_cons_of_neg (by decide), List.dropWhile_cons_of_neg (by decide),
    List.append_nil]
  exact ⟨rfl, rfl⟩

/-- **A text starts with a reference exactly if it starts with a name between braces.** -/
theorem headName?_eq_some_iff :
    headName? text = some name ↔ IsName name ∧ reference name <+: text := by
  constructor
  · intro h
    unfold headName? at h
    split at h
    · rename_i c rest
      split_ifs at h with hname
      obtain rfl := Option.some.inj h
      obtain ⟨hstart, hend⟩ := Bool.and_eq_true_iff.mp hname
      have hend := of_decide_eq_true hend
      refine ⟨⟨List.cons_ne_nil _ _, ?_, ?_⟩, ?_⟩
      · intro d hd
        obtain rfl : c = d := by simpa using hd
        exact hstart
      · intro d hd
        rcases List.mem_cons.mp hd with rfl | hd
        · exact isNameChar_of_isNameStart hstart
        · exact List.mem_takeWhile_imp hd
      · obtain ⟨after, hafter⟩ := List.head?_eq_some_iff.mp hend
        refine ⟨after, ?_⟩
        have hsplit := List.takeWhile_append_dropWhile (p := isNameChar) (l := rest)
        rw [hafter] at hsplit
        show '$' :: '\x7b' :: c :: (rest.takeWhile isNameChar ++ ['\x7d'] ++ after) = _
        rw [List.append_assoc, List.singleton_append, hsplit]
    · cases h
  · rintro ⟨h, after, rfl⟩
    obtain ⟨c, cs, rfl⟩ := List.exists_cons_of_ne_nil h.ne_nil
    have hstart : isNameStart c = true := h.head c rfl
    have hrest : ∀ d ∈ cs, isNameChar d = true := fun d hd => h.all d (List.mem_cons_of_mem _ hd)
    obtain ⟨htake, hdrop⟩ := takeWhile_name hrest after
    show headName? ('$' :: '\x7b' :: c :: (cs ++ ['\x7d'] ++ after)) = _
    rw [List.append_assoc, List.singleton_append, headName?, htake, hdrop, hstart]
    rfl

/-- References with different names do not start at the same place. -/
theorem eq_of_reference_isPrefix (h : IsName name) (hother : IsName other)
    (hstarts : reference name <+: reference other ++ rest) : name = other := by
  have hfirst : headName? (reference other ++ rest) = some other :=
    headName?_eq_some_iff.mpr ⟨hother, List.prefix_append _ _⟩
  have hsecond : headName? (reference other ++ rest) = some name :=
    headName?_eq_some_iff.mpr ⟨h, hstarts⟩
  exact Option.some.inj (hsecond.symm.trans hfirst)

/-- A reference starts with a dollar sign and has no other one. -/
theorem reference_eq_cons (name : List Char) :
    reference name = '$' :: ('\x7b' :: name ++ ['\x7d']) :=
  rfl

theorem IsName.not_mem_tail (h : IsName name) : '$' ∉ '\x7b' :: name ++ ['\x7d'] := by
  simp only [List.cons_append, List.mem_cons, List.mem_append, List.not_mem_nil, or_false, not_or]
  exact ⟨by decide, h.not_mem (by decide), by decide⟩

/-! ### Pieces -/

/-- What a text consists of. -/
inductive Piece where
  | char (c : Char)
  | reference (name : List Char)
deriving DecidableEq

/-- A piece as it is written. -/
def Piece.chars : Piece → List Char
  | .char c => [c]
  | .reference name => Template.reference name

/-- Some pieces one after the other. -/
def written (pieces : List Piece) : List Char :=
  pieces.flatMap Piece.chars

/-- The pieces of a text, of which some characters at the front are skipped. -/
def piecesFrom : Nat → List Char → List Piece
  | _, [] => []
  | skipped + 1, _ :: rest => piecesFrom skipped rest
  | 0, c :: rest =>
    match headName? (c :: rest) with
    | some name => .reference name :: piecesFrom (name.length + 2) rest
    | none => .char c :: piecesFrom 0 rest

/-- The pieces of a text. -/
def pieces (text : List Char) : List Piece :=
  piecesFrom 0 text

/-- A piece as it is filled, given the values of variables. -/
def Piece.filled (value? : List Char → Option (List Char)) : Piece → List Char
  | .char c => [c]
  | .reference name => (value? name).getD (Template.reference name)

/-- A text with all of its references replaced at once; those without a value stay. -/
def expand (value? : List Char → Option (List Char)) (text : List Char) : List Char :=
  (pieces text).flatMap (Piece.filled value?)

theorem piecesFrom_eq_drop : ∀ (skipped : Nat) (text : List Char),
    piecesFrom skipped text = pieces (text.drop skipped) := by
  intro skipped
  induction skipped with
  | zero => intro text; rfl
  | succ n ih =>
      intro text
      cases text with
      | nil => rfl
      | cons c rest => exact ih rest

theorem pieces_reference (h : IsName name) (rest : List Char) :
    pieces (reference name ++ rest) = .reference name :: pieces rest := by
  have hhead : headName? (reference name ++ rest) = some name :=
    headName?_eq_some_iff.mpr ⟨h, List.prefix_append _ _⟩
  rw [reference_eq_cons, List.cons_append] at hhead ⊢
  rw [pieces, piecesFrom, hhead]
  simp only
  rw [piecesFrom_eq_drop, List.drop_left' (by simp)]

theorem pieces_char {c : Char} (h : headName? (c :: rest) = none) :
    pieces (c :: rest) = .char c :: pieces rest := by
  rw [pieces, piecesFrom, h]
  rfl

/-- A text starts with a reference or with a character that stands for itself. -/
theorem text_cases (text : List Char) :
    text = [] ∨ (∃ name rest, IsName name ∧ text = reference name ++ rest) ∨
      ∃ c rest, text = c :: rest ∧ headName? text = none := by
  cases text with
  | nil => exact Or.inl rfl
  | cons c rest =>
      cases hhead : headName? (c :: rest) with
      | none => exact Or.inr (Or.inr ⟨c, rest, rfl, rfl⟩)
      | some name =>
          obtain ⟨hname, after, hafter⟩ := headName?_eq_some_iff.mp hhead
          exact Or.inr (Or.inl ⟨name, after, hname, hafter.symm⟩)

/-- What holds of a text if it holds of what comes after its first piece. -/
@[elab_as_elim]
theorem pieceInduction {motive : List Char → Prop} (nil : motive [])
    (reference : ∀ name rest, IsName name → motive rest → motive (reference name ++ rest))
    (char : ∀ c rest, headName? (c :: rest) = none → motive rest → motive (c :: rest))
    (text : List Char) : motive text := by
  rcases text_cases text with rfl | ⟨name, rest, hname, rfl⟩ | ⟨c, rest, rfl, hhead⟩
  · exact nil
  · exact reference name rest hname (pieceInduction nil reference char rest)
  · exact char c rest hhead (pieceInduction nil reference char rest)
termination_by text.length
decreasing_by
  · subst_vars
    simp only [Template.reference, List.length_append, List.length_cons]
    omega
  · subst_vars
    simp

/-- **The pieces of a text make up the text.** -/
theorem written_pieces (text : List Char) : written (pieces text) = text := by
  induction text using pieceInduction with
  | nil => rfl
  | reference name rest hname ih =>
      rw [pieces_reference hname, written, List.flatMap_cons, ← written, ih]
      rfl
  | char c rest hhead ih =>
      rw [pieces_char hhead, written, List.flatMap_cons, ← written, ih]
      rfl

theorem isName_of_mem_pieces (h : .reference name ∈ pieces text) : IsName name := by
  induction text using pieceInduction with
  | nil => cases h
  | reference other rest hother ih =>
      rw [pieces_reference hother, List.mem_cons] at h
      rcases h with h | h
      · obtain rfl := Piece.reference.inj h
        exact hother
      · exact ih h
  | char c rest hhead ih =>
      rw [pieces_char hhead, List.mem_cons] at h
      rcases h with h | h
      · cases h
      · exact ih h

/-- The name that a piece refers to. -/
def Piece.name? : Piece → Option (List Char)
  | .char _ => none
  | .reference name => some name

theorem names_append_of_not_mem : ∀ {front : List Char}, '$' ∉ front →
    names (front ++ rest) = names rest := by
  intro front
  induction front with
  | nil => intro _; rfl
  | cons c front ih =>
      intro h
      rw [List.mem_cons, not_or] at h
      obtain ⟨hc, hfront⟩ := h
      have hhead : headName? (c :: (front ++ rest)) = none := by
        unfold headName?
        split
        · rename_i heq
          exact absurd (List.cons.inj heq).1.symm hc
        · rfl
      rw [List.cons_append, names, hhead]
      exact ih hfront

/-- The names of the references of a text are those of its pieces. -/
theorem names_eq (text : List Char) : names text = (pieces text).filterMap Piece.name? := by
  induction text using pieceInduction with
  | nil => rfl
  | reference name rest hname ih =>
      have hhead : headName? (reference name ++ rest) = some name :=
        headName?_eq_some_iff.mpr ⟨hname, List.prefix_append _ _⟩
      rw [pieces_reference hname]
      show _ = name :: (pieces rest).filterMap Piece.name?
      rw [← ih]
      rw [reference_eq_cons, List.cons_append] at hhead ⊢
      rw [names, hhead]
      exact congrArg _ (names_append_of_not_mem hname.not_mem_tail)
  | char c rest hhead ih =>
      rw [pieces_char hhead, names, hhead]
      exact ih

theorem mem_names_iff : name ∈ names text ↔ .reference name ∈ pieces text := by
  rw [names_eq, List.mem_filterMap]
  constructor
  · rintro ⟨piece, hpiece, hname⟩
    cases piece with
    | char c => cases hname
    | reference other =>
        obtain rfl := Option.some.inj hname
        exact hpiece
  · intro h
    exact ⟨_, h, rfl⟩

end Rewards.Template
