import Mathlib.Data.List.AList

/- Tables with unique keys, as Mathlib's association lists without dependent values: the
   `std::unordered_map`s of the sources. What is added to Mathlib's API is how the list of
   entries changes, which is what sizes and one-to-one correspondences are about. -/
namespace Tables

/-- A table from keys to values. -/
abbrev Table (κ β : Type) := AList (fun _ : κ => β)

variable {κ β : Type} [DecidableEq κ] {t : Table κ β} {a : κ} {b : β}

def size (t : Table κ β) : Nat := t.entries.length

/-- An entry stands once among the entries: in front of what is left without it. -/
theorem perm_cons_erase (h : t.lookup a = some b) :
    t.entries.Perm (⟨a, b⟩ :: (t.erase a).entries) := by
  have hmem : a ∈ t.entries.keys := AList.lookup_isSome.mp (by rw [h]; rfl)
  obtain ⟨b', before, after, -, heq, herase⟩ := List.exists_of_kerase hmem
  have hb : b' = b := by
    have hin : (⟨a, b'⟩ : (_ : κ) × β) ∈ t.entries := by rw [heq]; simp
    exact Option.some.inj ((AList.mem_lookup_iff.mpr hin).symm.trans h)
  have hentries : (t.erase a).entries = before ++ after := herase
  rw [heq, hentries, hb]
  exact List.perm_middle

/-- A value that takes the place of another one. -/
theorem entries_insert (t : Table κ β) (a : κ) (b : β) :
    (t.insert a b).entries = ⟨a, b⟩ :: (t.erase a).entries := rfl

theorem size_insert_new (h : t.lookup a = none) : size (t.insert a b) = size t + 1 := by
  rw [size, AList.entries_insert_of_notMem (AList.lookup_eq_none.mp h)]
  rfl

end Tables
