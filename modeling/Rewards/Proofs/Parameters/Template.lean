/-
What filling a template comes to.

Replacing a reference everywhere in a text replaces just the pieces that are this reference.
References are filled one variable after another, though, and what one value has brought into
the text is looked at again for the next variable.  A reference that stands in a value, or that
a value and what is around it make up, is filled like the others if its variable comes later.
That is what keeps filling from being the same as replacing all pieces at once, and nothing
else does: while no reference is formed, the characters of the pieces that have been replaced
stay what they are.
-/
import Mathlib
import Rewards.Proofs.Parameters.Pieces

namespace Rewards.Template

variable {name other text rest value : List Char}

/-! ### Replacing one reference -/

/-- What a variable refers to in an environment. -/
def value? (environment : Environment) (name : List Char) : Option (List Char) :=
  (environment.get? (String.ofList name)).map String.toList

/-- Only the variable `name` has a value, if it has one. -/
def only (name : List Char) (value : Option (List Char)) (other : List Char) : Option (List Char) :=
  if other = name then value else none

/-- A piece with its characters in place of one reference. -/
def Piece.replaced (name value : List Char) : Piece → List Piece
  | .char c => [.char c]
  | .reference other => if other = name then value.map .char else [.reference other]

/-- Pieces in which a reference occurs as a piece only. -/
def IsWhole (name : List Char) (pieces : List Piece) : Prop :=
  ∀ front c rest, pieces = front ++ .char c :: rest → ¬ reference name <+: written (.char c :: rest)

theorem IsWhole.tail {piece : Piece} {pieces : List Piece} (h : IsWhole name (piece :: pieces)) :
    IsWhole name pieces := by
  intro front c rest hsplit
  exact h (piece :: front) c rest (by rw [hsplit]; rfl)

theorem written_map_char (value : List Char) : written (value.map .char) = value := by
  rw [written, List.flatMap_map]
  exact List.flatMap_singleton' value

theorem replaceFrom_eq_drop (pattern value : List Char) : ∀ (skipped : Nat) (text : List Char),
    replaceFrom pattern value skipped text = replaceAll pattern value (text.drop skipped) := by
  intro skipped
  induction skipped with
  | zero => intro text; rfl
  | succ n ih =>
      intro text
      cases text with
      | nil => cases pattern <;> rfl
      | cons c rest => exact ih rest

theorem replaceAll_reference_cons (name value : List Char) (c : Char) (rest : List Char) :
    replaceAll (reference name) value (c :: rest) =
      if (reference name).isPrefixOf (c :: rest) = true then
        value ++ replaceAll (reference name) value (rest.drop (name.length + 2))
      else c :: replaceAll (reference name) value rest := by
  have hlength : ('\x7b' :: (name ++ ['\x7d'])).length = name.length + 2 := by simp
  rw [← replaceFrom_eq_drop, ← hlength]
  rfl

theorem replaceAll_reference_append (name value rest : List Char) :
    replaceAll (reference name) value (reference name ++ rest) =
      value ++ replaceAll (reference name) value rest := by
  have hstarts : (reference name).isPrefixOf (reference name ++ rest) = true :=
    List.isPrefixOf_iff_prefix.mpr (List.prefix_append _ _)
  have hdrop : ('\x7b' :: name ++ ['\x7d'] ++ rest).drop (name.length + 2) = rest :=
    List.drop_left' (by simp)
  calc replaceAll (reference name) value (reference name ++ rest)
    _ = value ++ replaceAll (reference name) value
          (('\x7b' :: name ++ ['\x7d'] ++ rest).drop (name.length + 2)) :=
        (replaceAll_reference_cons _ _ _ _).trans (if_pos hstarts)
    _ = value ++ replaceAll (reference name) value rest := by rw [hdrop]

theorem replaceAll_cons {c : Char} (h : ¬ reference name <+: c :: rest) :
    replaceAll (reference name) value (c :: rest) = c :: replaceAll (reference name) value rest := by
  have hstarts : ¬ (reference name).isPrefixOf (c :: rest) = true :=
    fun hp => h (List.isPrefixOf_iff_prefix.mp hp)
  rw [replaceAll_reference_cons, if_neg hstarts]

/-- Text without a dollar sign is passed over. -/
theorem replaceAll_append_of_not_mem : ∀ {front : List Char}, '$' ∉ front →
    replaceAll (reference name) value (front ++ rest) =
      front ++ replaceAll (reference name) value rest := by
  intro front
  induction front with
  | nil => intro _; rfl
  | cons c front ih =>
      intro h
      rw [List.mem_cons, not_or] at h
      obtain ⟨hc, hfront⟩ := h
      rw [List.cons_append, replaceAll_cons, ih hfront]
      · rfl
      · intro hstarts
        rw [reference_eq_cons, List.cons_prefix_cons] at hstarts
        exact hc hstarts.1

/-- **Where a reference occurs as a piece only, replacing it everywhere replaces these pieces.** -/
theorem replaceAll_written (hname : IsName name) : ∀ {pieces : List Piece},
    (∀ other, .reference other ∈ pieces → IsName other) → IsWhole name pieces →
      replaceAll (reference name) value (written pieces) =
        written (pieces.flatMap (Piece.replaced name value)) := by
  intro pieces
  induction pieces with
  | nil => intro _ _; rfl
  | cons piece rest ih =>
      intro hnames hwhole
      have hrest := ih (fun other hother => hnames other (by simp [hother])) hwhole.tail
      have happend : written ((piece :: rest).flatMap (Piece.replaced name value)) =
          written (piece.replaced name value) ++ written (rest.flatMap (Piece.replaced name value)) := by
        rw [List.flatMap_cons, written, List.flatMap_append]
        rfl
      rw [happend, ← hrest]
      cases piece with
      | char c => exact replaceAll_cons (hwhole [] c rest rfl)
      | reference other =>
          show replaceAll (reference name) value (reference other ++ written rest) = _
          by_cases hsame : other = name
          · subst hsame
            rw [replaceAll_reference_append, Piece.replaced, if_pos rfl, written_map_char]
          · have hother := hnames other (by simp)
            rw [Piece.replaced, if_neg hsame, reference_eq_cons other, List.cons_append,
              replaceAll_cons, replaceAll_append_of_not_mem hother.not_mem_tail]
            · simp [written, Piece.chars, reference]
            · intro hstarts
              have hboth : reference name <+: reference other ++ written rest := hstarts
              exact hsame (eq_of_reference_isPrefix hname hother hboth).symm

theorem written_flatMap_replaced (name value : List Char) (pieces : List Piece) :
    written (pieces.flatMap (Piece.replaced name value)) =
      pieces.flatMap (Piece.filled (only name (some value))) := by
  rw [written, List.flatMap_assoc]
  congr 1
  funext piece
  cases piece with
  | char c => rfl
  | reference other =>
      by_cases h : other = name
      · rw [Piece.replaced, Piece.filled, only, if_pos h, if_pos h]
        exact written_map_char value
      · rw [Piece.replaced, Piece.filled, only, if_neg h, if_neg h]
        exact List.append_nil _

theorem isWhole_pieces (h : IsName name) (text : List Char) : IsWhole name (pieces text) := by
  induction text using pieceInduction with
  | nil =>
      intro front c rest hsplit
      cases front <;> cases hsplit
  | reference other after hother ih =>
      intro front c rest hsplit
      rw [pieces_reference hother] at hsplit
      cases front with
      | nil => cases hsplit
      | cons piece front => exact ih front c rest (List.cons.inj hsplit).2
  | char d after hhead ih =>
      intro front c rest hsplit
      rw [pieces_char hhead] at hsplit
      cases front with
      | nil =>
          intro hstarts
          have hwritten : written (.char c :: rest) = d :: after := by
            rw [← List.nil_append (Piece.char c :: rest), ← hsplit, ← pieces_char hhead,
              written_pieces]
          rw [hwritten] at hstarts
          rw [headName?_eq_some_iff.mpr ⟨h, hstarts⟩] at hhead
          cases hhead
      | cons piece front => exact ih front c rest (List.cons.inj hsplit).2

/-- **Replacing a reference everywhere in a text fills the pieces that are this reference.** -/
theorem replaceAll_reference_eq_expand (h : IsName name) (value text : List Char) :
    replaceAll (reference name) value text = expand (only name (some value)) text := by
  have hnames : ∀ other, .reference other ∈ pieces text → IsName other :=
    fun other => isName_of_mem_pieces
  calc replaceAll (reference name) value text
    _ = replaceAll (reference name) value (written (pieces text)) := by rw [written_pieces]
    _ = written ((pieces text).flatMap (Piece.replaced name value)) :=
        replaceAll_written h hnames (isWhole_pieces h text)
    _ = expand (only name (some value)) text := written_flatMap_replaced name value (pieces text)

/-! ### Replacing one reference after the other -/

/-- What `value?` makes of the pieces starts like the pieces, up to the first dollar sign. -/
theorem isPrefix_filled (value? : List Char → Option (List Char)) : ∀ {front : List Char},
    '$' ∉ front → ∀ {pieces : List Piece}, front <+: written pieces →
      front <+: pieces.flatMap (Piece.filled value?) := by
  intro front
  induction front with
  | nil => intro _ pieces _; exact List.nil_prefix
  | cons c front ih =>
      intro h pieces hstarts
      rw [List.mem_cons, not_or] at h
      cases pieces with
      | nil => exact absurd hstarts (by simp [written])
      | cons piece rest =>
          cases piece with
          | char d =>
              have hboth : c :: front <+: d :: written rest := hstarts
              obtain ⟨rfl, hrest⟩ := List.cons_prefix_cons.mp hboth
              exact List.cons_prefix_cons.mpr ⟨rfl, ih h.2 hrest⟩
          | reference other =>
              have hboth : c :: front <+: '$' :: _ := hstarts
              exact absurd (List.cons_prefix_cons.mp hboth).1.symm h.1

/-- A reference that does not come out of filling the pieces is in them as a piece only. -/
theorem isWhole_of_not_isInfix (h : IsName name) {pieces : List Piece}
    {value? : List Char → Option (List Char)}
    (hformed : ¬ reference name <:+: pieces.flatMap (Piece.filled value?)) :
    IsWhole name pieces := by
  rintro front c rest rfl hstarts
  have hboth : '$' :: _ <+: c :: written rest := hstarts
  obtain ⟨rfl, htail⟩ := List.cons_prefix_cons.mp hboth
  have hfilled := List.cons_prefix_cons.mpr
    ⟨Eq.refl '$', isPrefix_filled value? h.not_mem_tail htail⟩
  apply hformed
  rw [List.flatMap_append]
  exact hfilled.isInfix.trans (List.suffix_append _ _).isInfix

theorem flatMap_filled_replaced {value? : List Char → Option (List Char)}
    (h : value? name = some value) (pieces : List Piece) :
    (pieces.flatMap (Piece.replaced name value)).flatMap (Piece.filled value?) =
      pieces.flatMap (Piece.filled value?) := by
  rw [List.flatMap_assoc]
  congr 1
  funext piece
  cases piece with
  | char c => rfl
  | reference other =>
      by_cases hsame : other = name
      · rw [Piece.replaced, if_pos hsame, Piece.filled, hsame, h, List.flatMap_map]
        exact List.flatMap_singleton' value
      · rw [Piece.replaced, if_neg hsame]
        exact List.append_nil _

theorem mem_of_mem_flatMap_replaced {pieces : List Piece}
    (h : .reference other ∈ pieces.flatMap (Piece.replaced name value)) :
    .reference other ∈ pieces ∧ other ≠ name := by
  obtain ⟨piece, hpiece, hmem⟩ := List.mem_flatMap.mp h
  cases piece with
  | char c =>
      rw [Piece.replaced, List.mem_singleton] at hmem
      cases hmem
  | reference source =>
      by_cases hsame : source = name
      · rw [Piece.replaced, if_pos hsame, List.mem_map] at hmem
        obtain ⟨c, -, hc⟩ := hmem
        cases hc
      · rw [Piece.replaced, if_neg hsame, List.mem_singleton] at hmem
        obtain rfl := Piece.reference.inj hmem
        exact ⟨hpiece, hsame⟩

theorem written_eq_filled {value? : List Char → Option (List Char)} : ∀ {pieces : List Piece},
    (∀ other, .reference other ∉ pieces) →
      written pieces = pieces.flatMap (Piece.filled value?) := by
  intro pieces
  induction pieces with
  | nil => intro _; rfl
  | cons piece rest ih =>
      intro h
      cases piece with
      | char c => exact congrArg (c :: ·) (ih fun other hother => h other (by simp [hother]))
      | reference other => exact absurd (by simp) (h other)

theorem fill_cons_of_get? {environment : Environment} {order : List (List Char)}
    (h : value? environment name = some value) :
    fill environment (name :: order) text =
      fill environment order (replaceAll (reference name) value text) := by
  obtain ⟨found, hfound, rfl⟩ := Option.map_eq_some_iff.mp h
  rw [fill, hfound]

/-- **With each step, filling replaces all pieces of one reference; while none is formed, the
order of the steps does not matter.** -/
theorem fill_written {environment : Environment} : ∀ {order : List (List Char)}
    {pieces : List Piece},
    (∀ other, .reference other ∈ pieces → IsName other ∧ other ∈ order) →
    (∀ name ∈ order, IsName name ∧ (value? environment name).isSome ∧
      ¬ reference name <:+: pieces.flatMap (Piece.filled (value? environment))) →
    fill environment order (written pieces) =
      (pieces.flatMap (Piece.filled (value? environment)), []) := by
  intro order
  induction order with
  | nil =>
      intro pieces hnames _
      have hnone : ∀ other, .reference other ∉ pieces :=
        fun other hother => List.not_mem_nil (hnames other hother).2
      rw [fill, written_eq_filled hnone]
  | cons name order ih =>
      intro pieces hnames horder
      obtain ⟨hname, hset, hformed⟩ := horder name List.mem_cons_self
      obtain ⟨value, hvalue⟩ := Option.isSome_iff_exists.mp hset
      rw [fill_cons_of_get? hvalue, replaceAll_written hname (fun other hother => (hnames other hother).1)
        (isWhole_of_not_isInfix hname hformed)]
      rw [ih, flatMap_filled_replaced hvalue]
      · intro other hother
        obtain ⟨hmem, hne⟩ := mem_of_mem_flatMap_replaced hother
        obtain ⟨hisName, hin⟩ := hnames other hmem
        exact ⟨hisName, (List.mem_cons.mp hin).resolve_left hne⟩
      · intro other hother
        rw [flatMap_filled_replaced hvalue]
        exact horder other (List.mem_cons_of_mem _ hother)

/-- Each step of filling replaces the references to one variable in what has come of the text. -/
theorem fill_eq_foldl {environment : Environment} : ∀ {order : List (List Char)} {text : List Char},
    (∀ name ∈ order, IsName name ∧ (value? environment name).isSome) →
      fill environment order text =
        (order.foldl (fun filled name => expand (only name (value? environment name)) filled) text,
          []) := by
  intro order
  induction order with
  | nil => intro text _; rfl
  | cons name order ih =>
      intro text horder
      obtain ⟨hname, hset⟩ := horder name List.mem_cons_self
      obtain ⟨value, hvalue⟩ := Option.isSome_iff_exists.mp hset
      rw [fill_cons_of_get? hvalue, replaceAll_reference_eq_expand hname, List.foldl_cons, hvalue]
      exact ih fun other hother => horder other (List.mem_cons_of_mem _ hother)

theorem substitute_of_fill {environment : Environment} {text : String} {filled : List Char}
    (h : fill environment (names text.toList) text.toList = (filled, [])) :
    substitute environment text = .ok (String.ofList filled) := by
  rw [substitute, h]
  rfl

/-- **Filling a template replaces the references to one variable after the other, each in what
has come of the text by then; unless that forms references to variables of the text, this is
the same as replacing all references of the text at once, and the order does not matter.** -/
theorem fills_at_once_unless_formed (environment : Environment) (text : String)
    (hset : ∀ name ∈ names text.toList, (value? environment name).isSome) :
    substitute environment text = .ok (String.ofList ((names text.toList).foldl
      (fun filled name => expand (only name (value? environment name)) filled) text.toList)) ∧
    ((∀ name ∈ names text.toList,
        ¬ reference name <:+: expand (value? environment) text.toList) →
      substitute environment text = .ok (String.ofList (expand (value? environment) text.toList)) ∧
      ∀ order, order.Perm (names text.toList) →
        fill environment order text.toList = (expand (value? environment) text.toList, [])) := by
  have hisName : ∀ name ∈ names text.toList, IsName name :=
    fun name hname => isName_of_mem_pieces (mem_names_iff.mp hname)
  refine ⟨substitute_of_fill (fill_eq_foldl fun name hname => ⟨hisName name hname, hset name hname⟩),
    fun hformed => ?_⟩
  have horders : ∀ order, order.Perm (names text.toList) →
      fill environment order text.toList = (expand (value? environment) text.toList, []) := by
    intro order hperm
    have hfill : fill environment order (written (pieces text.toList)) =
        (expand (value? environment) text.toList, []) := by
      apply fill_written
      · intro other hother
        exact ⟨isName_of_mem_pieces hother, hperm.mem_iff.mpr (mem_names_iff.mpr hother)⟩
      · intro name hname
        have hname := hperm.mem_iff.mp hname
        exact ⟨hisName name hname, hset name hname, hformed name hname⟩
    rw [written_pieces] at hfill
    exact hfill
  exact ⟨substitute_of_fill (horders _ (List.Perm.refl _)), horders⟩

/-- Values may hold references to other variables, and may stand between loose braces. -/
theorem fills_at_once_unless_formed_nested :
    let environment : Environment :=
      .ofList [("A", "$\x7bC\x7d"), ("B", "$1"), ("C", "x")]
    let text := "$\x7bA\x7d$\x7b$\x7bB\x7d\x7d"
    (∀ name ∈ names text.toList, (value? environment name).isSome) ∧
      (∀ name ∈ names text.toList,
        ¬ reference name <:+: expand (value? environment) text.toList) ∧
      substitute environment text = .ok "$\x7bC\x7d$\x7b$1\x7d" := by
  intro environment text
  have hset : ∀ name ∈ names text.toList, (value? environment name).isSome := by decide +kernel
  have hformed : ∀ name ∈ names text.toList,
      ¬ reference name <:+: expand (value? environment) text.toList := by decide +kernel
  have hfilled := (fills_at_once_unless_formed environment text hset).2 hformed
  refine ⟨hset, hformed, hfilled.1.trans ?_⟩
  decide +kernel

/-- What one value has brought in is filled with the next one, so the order of the references
matters. -/
theorem fills_formed_references :
    let environment : Environment := .ofList [("A", "$\x7bB\x7d"), ("B", "x")]
    let text := "$\x7bA\x7d$\x7bB\x7d"
    (∀ name ∈ names text.toList, (value? environment name).isSome) ∧
      substitute environment text = .ok "xx" ∧
      String.ofList (expand (value? environment) text.toList) = "$\x7bB\x7dx" ∧
      substitute environment "$\x7bB\x7d$\x7bA\x7d" = .ok "x$\x7bB\x7d" := by
  decide +kernel

end Rewards.Template
