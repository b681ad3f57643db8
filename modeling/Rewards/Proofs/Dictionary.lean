/-
Dictionaries are determined by what is looked up in them.

A dictionary lists each key once and in order, so the list is no more than the values
of its keys: two dictionaries in which every key has the same value are the same.  And
looking a key up in one made from a list of pairs finds the last pair with this key.
-/
import Mathlib
import Rewards.Dictionary

namespace Rewards.Dictionary

variable {α : Type}

/-! ### The first pair with a key -/

theorem find?_cons_key (e : String × α) (l : List (String × α)) (key : String) :
    (e :: l).find? (fun x => x.1 == key) =
      if e.1 = key then some e else l.find? (fun x => x.1 == key) := by
  by_cases h : e.1 = key
  · rw [if_pos h, List.find?_cons_of_pos (by simpa using h)]
  · rw [if_neg h, List.find?_cons_of_neg (by simpa using h)]

theorem of_find?_key {l : List (String × α)} {key : String} {e : String × α}
    (h : l.find? (fun x => x.1 == key) = some e) : e ∈ l ∧ e.1 = key :=
  ⟨List.mem_of_find?_eq_some h, by simpa using List.find?_some h⟩

/-! ### Entries and lookups -/

theorem nodup_keys (d : Dictionary α) : (d.entries.map (·.1)).Nodup := by
  refine List.pairwise_map.mpr (d.ascending.imp fun {a b} hlt heq => ?_)
  rw [heq] at hlt
  exact String.lt_irrefl _ hlt

/-- A key has a value exactly if the two are an entry. -/
theorem get?_eq_some_iff {d : Dictionary α} {key : String} {value : α} :
    d.get? key = some value ↔ (key, value) ∈ d.entries := by
  constructor
  · intro h
    obtain ⟨e, hfound, rfl⟩ := Option.map_eq_some_iff.mp h
    obtain ⟨hmem, rfl⟩ := of_find?_key hfound
    exact hmem
  · intro hmem
    have hsome : (d.entries.find? (fun e => e.1 == key)).isSome = true :=
      List.find?_isSome.mpr ⟨_, hmem, beq_self_eq_true key⟩
    obtain ⟨e, hfound⟩ := Option.isSome_iff_exists.mp hsome
    obtain ⟨he, hkey⟩ := of_find?_key hfound
    obtain rfl : e = (key, value) := List.inj_on_of_nodup_map d.nodup_keys he hmem hkey
    rw [get?, hfound]
    rfl

/-- **Dictionaries with the same lookups are the same.** -/
theorem eq_of_get?_eq {d e : Dictionary α} (h : ∀ key, d.get? key = e.get? key) : d = e := by
  have hmem : ∀ entry, entry ∈ d.entries ↔ entry ∈ e.entries := by
    intro entry
    rw [← get?_eq_some_iff, ← get?_eq_some_iff, h]
  have hperm : d.entries.Perm e.entries :=
    (List.perm_ext_iff_of_nodup d.nodup_keys.of_map e.nodup_keys.of_map).mpr hmem
  have hentries : d.entries = e.entries :=
    hperm.eq_of_pairwise (fun a b _ _ hab hba => absurd (String.lt_trans hab hba)
      (String.lt_irrefl _)) d.ascending e.ascending
  cases d
  cases e
  simpa using hentries

theorem get?_map {β : Type} (f : α → β) (d : Dictionary α) (key : String) :
    (d.map f).get? key = (d.get? key).map f := by
  rw [get?, map, List.find?_map, get?, Option.map_map, Option.map_map]
  rfl

/-! ### Dictionaries of pairs -/

theorem find?_insertEntry (key other : String) (value : α) (l : List (String × α)) :
    (insertEntry key value l).find? (fun e => e.1 == other) =
      if key = other then some (key, value) else l.find? (fun e => e.1 == other) := by
  induction l with
  | nil => rw [insertEntry, find?_cons_key]
  | cons head rest ih =>
      obtain ⟨k, v⟩ := head
      rw [insertEntry]
      by_cases hlt : key < k
      · rw [if_pos hlt, find?_cons_key]
      · by_cases hk : key = k
        · subst hk
          rw [if_neg hlt, if_pos rfl, find?_cons_key, find?_cons_key]
          by_cases h : key = other
          · rw [if_pos h, if_pos h]
          · rw [if_neg h, if_neg h, if_neg h]
        · rw [if_neg hlt, if_neg hk, find?_cons_key, find?_cons_key, ih]
          by_cases h : k = other
          · rw [if_pos h, if_pos h, if_neg fun hother => hk (hother.trans h.symm)]
          · rw [if_neg h, if_neg h]

/-- A key that is put in has the new value, and every other key has its old one. -/
theorem get?_insert (d : Dictionary α) (key other : String) (value : α) :
    (d.insert key value).get? other = if key = other then some value else d.get? other := by
  rw [get?, insert, find?_insertEntry]
  by_cases h : key = other
  · rw [if_pos h, if_pos h]
    rfl
  · rw [if_neg h, if_neg h]
    rfl

theorem mem_keys_iff {d : Dictionary α} {key : String} :
    key ∈ d.keys ↔ ∃ value, d.get? key = some value := by
  rw [keys, List.mem_map]
  constructor
  · rintro ⟨e, he, rfl⟩
    exact ⟨e.2, get?_eq_some_iff.mpr he⟩
  · rintro ⟨value, h⟩
    exact ⟨_, get?_eq_some_iff.mp h, rfl⟩

theorem mem_keys_insert {d : Dictionary α} {key other : String} {value : α} :
    other ∈ (d.insert key value).keys ↔ other = key ∨ other ∈ d.keys := by
  rw [mem_keys_iff, get?_insert, mem_keys_iff]
  by_cases h : key = other
  · simp [h]
  · simp [h, Ne.symm h]

theorem ofList_concat (pairs : List (String × α)) (e : String × α) :
    ofList (pairs ++ [e]) = (ofList pairs).insert e.1 e.2 := by
  rw [ofList, List.foldl_append]
  rfl

/-- **Of a repeated key the last value counts.** -/
theorem get?_ofList (pairs : List (String × α)) (key : String) :
    (ofList pairs).get? key = (pairs.reverse.find? (fun e => e.1 == key)).map (·.2) := by
  induction pairs using List.reverseRecOn with
  | nil => rfl
  | append_singleton pairs e ih =>
      rw [ofList_concat, get?_insert, ih, List.reverse_append, List.reverse_singleton,
        List.singleton_append, find?_cons_key]
      by_cases h : e.1 = key
      · rw [if_pos h, if_pos h]
        rfl
      · rw [if_neg h, if_neg h]

/-- The entries of a dictionary of pairs are some of the pairs. -/
theorem mem_of_mem_ofList {pairs : List (String × α)} {e : String × α}
    (h : e ∈ (ofList pairs).entries) : e ∈ pairs := by
  have hget : (ofList pairs).get? e.1 = some e.2 := get?_eq_some_iff.mpr h
  rw [get?_ofList] at hget
  obtain ⟨found, hfound, hvalue⟩ := Option.map_eq_some_iff.mp hget
  obtain ⟨hmem, hkey⟩ := of_find?_key hfound
  obtain rfl : found = e := Prod.ext hkey hvalue
  exact List.mem_reverse.mp hmem

end Rewards.Dictionary
