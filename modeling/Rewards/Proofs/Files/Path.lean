/-
The names that paths spell out.

A path that is joined from names ends in these names, whatever it starts with, so where
it leads is a place that ends in them too.  The absolute path of that place shows them
again.  Paths that end in different names therefore lead to places with different paths.
-/
import Mathlib
import Rewards.Files.Tree

namespace Rewards

namespace Path

/-! ### The parts of a path -/

theorem split_eq_splitOn (cs : List Char) : split cs = cs.splitOn '/' := by
  induction cs with
  | nil => rfl
  | cons c rest ih =>
      rw [split, List.splitOn_cons_eq_if_modifyHead, ih]
      by_cases hc : c = '/'
      · simp [hc]
      · rw [if_neg hc, if_neg (by simpa using hc)]
        cases hparts : rest.splitOn '/' with
        | nil => exact absurd hparts (List.splitOn_ne_nil _ _)
        | cons part parts => rfl

/-- The parts on the two sides of a slash are those of its sides. -/
theorem split_append (xs ys : List Char) : split (xs ++ '/' :: ys) = split xs ++ split ys := by
  rw [split_eq_splitOn, split_eq_splitOn, split_eq_splitOn, List.splitOn_append_cons_self]

/-- The names of a place are the parts of its path, but for an empty one at the root. -/
theorem parts_ofPlace {place : List String} (hne : place ≠ [])
    (hslash : ∀ name ∈ place, '/' ∉ name.toList) : parts (ofPlace place) = "" :: place := by
  have hlist : (ofPlace place).toList =
      '/' :: List.intercalate ['/'] (place.map String.toList) := by
    rw [ofPlace, String.toList_append, String.toList_intercalate]
    rfl
  have hparts : (List.intercalate ['/'] (place.map String.toList)).splitOn '/' =
      place.map String.toList := by
    refine List.splitOn_intercalate '/' (fun part hpart => ?_) (by simpa using hne)
    obtain ⟨name, hname, rfl⟩ := List.mem_map.mp hpart
    exact hslash name hname
  rw [parts, hlist, split_eq_splitOn, List.splitOn_cons_eq_if_modifyHead, hparts,
    if_pos (beq_self_eq_true '/'), List.map_cons, List.map_map]
  have hround : String.ofList ∘ String.toList = id := funext fun _ => String.ofList_toList
  rw [hround, List.map_id]

/-! ### Names -/

/-- A text that names what is in a directory, rather than a directory by its relation to it. -/
structure IsName (name : String) : Prop where
  ne_empty : name ≠ ""
  ne_dot : name ≠ "."
  ne_dots : name ≠ ".."
  noSlash : '/' ∉ name.toList

/-- A text with some other letter in front is a name if it has no slash. -/
theorem IsName.of_append {start rest : String} {c : Char} {cs : List Char}
    (hstart : start.toList = c :: cs) (hdot : c ≠ '.') (hslash : '/' ∉ start.toList)
    (hrest : '/' ∉ rest.toList) : IsName (start ++ rest) := by
  have hlist : (start ++ rest).toList = c :: (cs ++ rest.toList) := by
    rw [String.toList_append, hstart]
    rfl
  refine ⟨fun h => ?_, fun h => ?_, fun h => ?_, ?_⟩
  · rw [h] at hlist
    cases hlist
  · rw [h] at hlist
    exact hdot (List.cons.inj hlist).1.symm
  · rw [h] at hlist
    exact hdot (List.cons.inj hlist).1.symm
  · rw [String.toList_append, List.mem_append]
    exact fun h => h.elim hslash hrest

variable {name path : String}

theorem IsName.split_toList (h : IsName name) : split name.toList = [name.toList] := by
  rw [split_eq_splitOn, List.splitOn_eq_singleton h.noSlash]

theorem IsName.isAbsolute_eq_false (h : IsName name) : isAbsolute name = false := by
  unfold isAbsolute
  rw [decide_eq_false_iff_not]
  exact fun hhead => h.noSlash (List.mem_of_mem_head? hhead)

/-- A path to which a slash has to be added before another name is joined to it. -/
def IsOpen (path : String) : Prop :=
  path ≠ "" ∧ path.toList.getLast? ≠ some '/'

theorem IsName.isOpen_append (h : IsName name) (path : String) : IsOpen (path ++ name) := by
  have hne : name.toList ≠ [] := by
    simpa using h.ne_empty
  refine ⟨fun hempty => hne ?_, fun hlast => h.noSlash ?_⟩
  · have hlist := congrArg String.toList hempty
    rw [String.toList_append] at hlist
    exact (List.append_eq_nil_iff.mp hlist).2
  · rw [String.toList_append, List.getLast?_append_of_ne_nil _ hne] at hlast
    exact List.mem_of_getLast? hlast

/-- A name that is joined to an open path is one more part of it. -/
theorem parts_join_of_isOpen (hpath : IsOpen path) (h : IsName name) :
    parts (join path name) = parts path ++ [name] ∧ IsOpen (join path name) := by
  have hjoin : join path name = path ++ "/" ++ name := by
    rw [join, h.isAbsolute_eq_false, if_neg Bool.false_ne_true]
    exact if_neg (not_or.mpr hpath)
  refine ⟨?_, hjoin ▸ h.isOpen_append _⟩
  have hlist : (path ++ "/" ++ name).toList = path.toList ++ '/' :: name.toList := by
    simp [String.toList_append]
  rw [hjoin, parts, hlist, split_append, h.split_toList, List.map_append, parts]
  simp

/-- A name is put right behind a path that is empty or ends in a slash. -/
theorem join_of_not_isOpen (hpath : ¬ IsOpen path) (h : IsName name) :
    (path = "" ∨ path.toList.getLast? = some '/') ∧ join path name = path ++ name := by
  have hclosed : path = "" ∨ path.toList.getLast? = some '/' := by
    rwa [IsOpen, not_and_or, not_not, not_not] at hpath
  refine ⟨hclosed, ?_⟩
  rw [join, h.isAbsolute_eq_false, if_neg Bool.false_ne_true]
  exact if_pos hclosed

/-- A name that is joined to any path is its last part. -/
theorem exists_parts_join (path : String) (h : IsName name) :
    (∃ before, parts (join path name) = before ++ [name]) ∧ IsOpen (join path name) := by
  by_cases hopen : IsOpen path
  · obtain ⟨hparts, hjoined⟩ := parts_join_of_isOpen hopen h
    exact ⟨⟨_, hparts⟩, hjoined⟩
  · obtain ⟨hclosed, hjoin⟩ := join_of_not_isOpen hopen h
    refine ⟨?_, hjoin ▸ h.isOpen_append _⟩
    rw [hjoin, parts, String.toList_append]
    rcases hclosed with rfl | hlast
    · refine ⟨[], ?_⟩
      show (split ([] ++ name.toList)).map String.ofList = _
      rw [List.nil_append, h.split_toList]
      simp
    · obtain ⟨front, hfront⟩ := List.getLast?_eq_some_iff.mp hlast
      refine ⟨(split front).map String.ofList, ?_⟩
      rw [hfront, List.append_assoc, List.singleton_append, split_append, h.split_toList,
        List.map_append]
      simp

/-- Names that are joined to an open path one after the other are its further parts. -/
theorem parts_foldl_join : ∀ {names : List String} {path : String}, IsOpen path →
    (∀ name ∈ names, IsName name) →
      parts (names.foldl join path) = parts path ++ names ∧ IsOpen (names.foldl join path) := by
  intro names
  induction names with
  | nil =>
      intro path hpath _
      exact ⟨(List.append_nil _).symm, hpath⟩
  | cons name rest ih =>
      intro path hpath hnames
      obtain ⟨hparts, hopen⟩ := parts_join_of_isOpen hpath (hnames name (by simp))
      obtain ⟨hrest, hjoined⟩ := ih hopen fun n hn => hnames n (by simp [hn])
      refine ⟨?_, hjoined⟩
      rw [List.foldl_cons, hrest, hparts, List.append_assoc]
      rfl

/-- **A path that names are joined to ends in them.** -/
theorem exists_parts_foldl_join {names : List String} (hne : names ≠ [])
    (hnames : ∀ name ∈ names, IsName name) (path : String) :
    (∃ before, parts (names.foldl join path) = before ++ names) ∧
      names.foldl join path ≠ "" := by
  obtain ⟨name, rest, rfl⟩ := List.exists_cons_of_ne_nil hne
  obtain ⟨⟨before, hbefore⟩, hopen⟩ := exists_parts_join path (hnames name (by simp))
  have hnext : ∀ n ∈ rest, IsName n := fun n hn => hnames n (by simp [hn])
  obtain ⟨hrest, hjoined⟩ := parts_foldl_join hopen hnext
  refine ⟨⟨before, ?_⟩, hjoined.1⟩
  rw [List.foldl_cons, hrest, hbefore, List.append_assoc]
  rfl

/-! ### The path of a place that ends in names -/

theorem split_append_flatMap : ∀ {names : List String} (front : List Char),
    (∀ name ∈ names, IsName name) →
      split (front ++ names.flatMap fun name => '/' :: name.toList) =
        split front ++ names.map String.toList := by
  intro names
  induction names with
  | nil => simp
  | cons name rest ih =>
      intro front hnames
      have hfront : front ++ (name :: rest).flatMap (fun name => '/' :: name.toList) =
          (front ++ '/' :: name.toList) ++ rest.flatMap fun name => '/' :: name.toList := by
        simp
      rw [hfront, ih _ fun n hn => hnames n (by simp [hn]), split_append,
        (hnames name (by simp)).split_toList]
      simp

theorem toList_ofPlace {place : List String} (hne : place ≠ []) :
    (ofPlace place).toList = place.flatMap fun name => '/' :: name.toList := by
  rw [ofPlace, String.toList_append, String.toList_intercalate]
  show '/' :: ['/'].intercalate (place.map String.toList) = _
  induction place with
  | nil => exact absurd rfl hne
  | cons name rest ih =>
      cases rest with
      | nil => simp
      | cons next rest =>
          rw [List.flatMap_cons, ← ih (List.cons_ne_nil _ _)]
          simp [List.intercalate_cons_cons]

/-- **The path of a place that ends in names ends in them as well.** -/
theorem exists_parts_ofPlace {names : List String} (hne : names ≠ [])
    (hnames : ∀ name ∈ names, IsName name) (front : List String) :
    ∃ before, parts (ofPlace (front ++ names)) = before ++ names := by
  have hplace : front ++ names ≠ [] := List.append_ne_nil_of_right_ne_nil _ hne
  refine ⟨(split (front.flatMap fun name => '/' :: name.toList)).map String.ofList, ?_⟩
  rw [parts, toList_ofPlace hplace, List.flatMap_append, split_append_flatMap _ hnames,
    List.map_append, List.map_map]
  have hround : String.ofList ∘ String.toList = id := funext fun _ => String.ofList_toList
  rw [hround, List.map_id]

theorem isAbsolute_ofPlace (place : List String) : isAbsolute (ofPlace place) = true := by
  unfold isAbsolute ofPlace
  rw [decide_eq_true_iff, String.toList_append]
  rfl

end Path

namespace FileTree

variable {tree : FileTree} {path : String} {place : Place} {node : Node}

/-! ### Following names -/

/-- Following a path is following its beginning, and the rest from where that leads. -/
theorem follow_append (rest : List String) : ∀ {names : List String} {start : Place},
    tree.follow start (names ++ rest) =
      (tree.follow start names).bind fun found => tree.follow found.1 rest := by
  intro names
  induction names with
  | nil =>
      intro start
      rw [List.nil_append, follow]
      cases hnode : tree.node? start with
      | none =>
          cases rest with
          | nil => simp [follow, hnode, Except.bind]
          | cons name rest => simp [follow, hnode, Except.bind]
      | some node => rfl
  | cons name names ih =>
      intro start
      rw [List.cons_append, follow, follow]
      cases hnode : tree.node? start with
      | none => rfl
      | some node =>
          cases node with
          | file content => rfl
          | directory =>
              simp only
              split_ifs
              · exact ih
              · exact ih
              · exact ih

/-- Names lead to the place that they are the last names of. -/
theorem place_of_follow_names : ∀ {names : List String} {start : Place},
    (∀ name ∈ names, Path.IsName name) → tree.follow start names = .ok (place, node) →
      place = start ++ names := by
  intro names
  induction names with
  | nil =>
      intro start _ h
      rw [follow] at h
      cases hnode : tree.node? start with
      | none => simp [hnode] at h
      | some found =>
          rw [hnode] at h
          cases h
          exact (List.append_nil _).symm
  | cons name rest ih =>
      intro start hnames h
      have hname := hnames name (by simp)
      rw [follow] at h
      cases hnode : tree.node? start with
      | none => simp [hnode] at h
      | some found =>
          rw [hnode] at h
          cases found with
          | file content => cases h
          | directory =>
              simp only at h
              rw [if_neg (not_or.mpr ⟨hname.ne_empty, hname.ne_dot⟩), if_neg hname.ne_dots] at h
              rw [ih (fun n hn => hnames n (by simp [hn])) h, List.append_assoc]
              rfl

/-- **A path joined from names leads to a place that ends in them.** -/
theorem exists_place_of_resolve {names : List String} (hne : names ≠ [])
    (hnames : ∀ name ∈ names, Path.IsName name) {root : String}
    (h : tree.resolve (names.foldl Path.join root) = .ok (place, node)) :
    ∃ front, place = front ++ names := by
  obtain ⟨⟨before, hparts⟩, hpath⟩ := Path.exists_parts_foldl_join hne hnames root
  rw [resolve, if_neg hpath, hparts, follow_append] at h
  cases hfront : tree.follow (tree.startOf (names.foldl Path.join root)) before with
  | error obstacle =>
      rw [hfront] at h
      cases h
  | ok found =>
      rw [hfront] at h
      exact ⟨found.1, place_of_follow_names hnames h⟩

end FileTree

end Rewards
