/-
The files of partitions.

A partition lies at a path that ends in its size, its first block and its end, so the
place that the path leads to ends in them as well.  Two partitions of a table that start
at different blocks therefore never have the same file.  This rests on trees having no
symbolic links: with them, the paths of two partitions could lead to one file.
-/
import Rewards.Dataset
import Rewards.Proofs.Block
import Rewards.Proofs.Files.Path

namespace Rewards

/-- The names that lead from the directory of a table to the file of a partition. -/
def Partition.names (p : Partition) : List String :=
  ["partition_size=" ++ natText p.size, "start_partition=" ++ natText p.start,
    "end_partition=" ++ natText p.stop, "data.parquet"]

theorem Partition.isName_of_mem_names {p : Partition} {name : String} (h : name ∈ p.names) :
    Path.IsName name := by
  simp only [names, List.mem_cons, List.not_mem_nil, or_false] at h
  rcases h with rfl | rfl | rfl | rfl
  · exact .of_append rfl (by decide) (by decide) (not_mem_natText rfl _)
  · exact .of_append rfl (by decide) (by decide) (not_mem_natText rfl _)
  · exact .of_append rfl (by decide) (by decide) (not_mem_natText rfl _)
  · exact ⟨by decide, by decide, by decide, by decide⟩

theorem Partition.start_eq_of_names_eq {p q : Partition} (h : p.names = q.names) :
    p.start = q.start := by
  have hstart := (List.cons.inj (List.cons.inj h).2).1
  exact natText_injective (String.append_right_inj _ |>.mp hstart)

/-- **Partitions that start at different blocks have different files.** -/
theorem DatasetConfig.file_ne_of_start_ne {tree : FileTree} {dataset : DatasetConfig}
    {root table file other : String} {p q : Partition} (hne : p.start ≠ q.start)
    (hp : tree.canonicalPath (dataset.partitionPath root table p) = .ok file)
    (hq : tree.canonicalPath (dataset.partitionPath root table q) = .ok other) : file ≠ other := by
  have hfile : ∀ {r : Partition} {found : String},
      tree.canonicalPath (dataset.partitionPath root table r) = .ok found →
        ∃ before, Path.parts found = before ++ r.names := by
    intro r found h
    unfold FileTree.canonicalPath at h
    cases hresolve : tree.resolve (dataset.partitionPath root table r) with
    | error obstacle =>
        rw [hresolve] at h
        cases h
    | ok reached =>
        rw [hresolve] at h
        cases h
        obtain ⟨front, hfront⟩ := FileTree.exists_place_of_resolve (List.cons_ne_nil _ _)
          (fun _ => Partition.isName_of_mem_names) hresolve
        show ∃ before, Path.parts (Path.ofPlace reached.1) = _
        rw [hfront]
        exact Path.exists_parts_ofPlace (List.cons_ne_nil _ _)
          (fun _ => Partition.isName_of_mem_names) front
  rintro rfl
  obtain ⟨before, hbefore⟩ := hfile hp
  obtain ⟨before', hbefore'⟩ := hfile hq
  refine hne (Partition.start_eq_of_names_eq ?_)
  exact (List.append_inj' (hbefore.symm.trans hbefore') rfl).2

end Rewards
