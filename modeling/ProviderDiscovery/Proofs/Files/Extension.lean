import ProviderDiscovery.Proofs.Files.Path

/-!
# File names and extensions

The last name of a path is the name of the file that it leads to, unless it is a dot or two
(`fileName?_of_getLast?`). An extension is what stands behind the last dot of that name, when
something stands before the dot (`extension?_eq_some_iff`).
-/

namespace ProviderDiscovery.Path

/-! ### The last name -/

/-- The names of a path are neither empty nor do they hold slashes. -/
theorem isPlain_of_mem_names {p : Path} {name : String} (h : name ∈ p.names) (hdot : name ≠ ".")
    (hdots : name ≠ "..") : IsPlain name := by
  obtain ⟨s, hs, rfl⟩ := List.mem_map.mp h
  obtain ⟨hsegment, hne⟩ := List.mem_filter.mp hs
  refine ⟨?_, hdot, hdots, ?_⟩
  · simpa [← String.toList_eq_nil_iff] using hne
  · rw [String.toList_ofList]
    exact Text.not_mem_of_mem_segments hsegment

/-- Single dots count at the start of a path at most. -/
theorem getLast?_components {p : Path} {front : List String} {name : String}
    (h : p.names = front ++ [name]) (hdot : name ≠ ".") : p.components.getLast? = some name := by
  have hkeep : ∀ l : List String, ((l ++ [name]).filter (· ≠ ".")).getLast? = some name := by
    intro l
    simp [List.filter_append, hdot]
  rw [components]
  split
  · rename_i rest hnames
    rw [h] at hnames
    cases front with
    | nil => exact absurd (List.cons.inj hnames).1 hdot
    | cons first more =>
      obtain ⟨-, rfl⟩ := List.cons.inj hnames
      split
      · exact hkeep more
      · change ("." :: (more ++ [name]).filter (· ≠ ".")).getLast? = some name
        rw [List.getLast?_cons, hkeep more]
        rfl
  · rw [h]
    exact hkeep front

/-- The last name of a path is the name of the file that it leads to. -/
theorem fileName?_of_getLast? {p : Path} {name : String} (h : p.names.getLast? = some name)
    (hname : IsPlain name) : p.fileName? = some name := by
  obtain ⟨front, hfront⟩ := List.getLast?_eq_some_iff.mp h
  rw [fileName?, getLast?_components hfront hname.ne_dot]
  simp [hname.ne_dot, hname.ne_dots]

/-- What is joined is the name of the file. -/
theorem fileName?_join {name : String} (hname : IsPlain name) (p : Path) :
    (p.join name).fileName? = some name := by
  refine fileName?_of_getLast? ?_ hname
  rw [names_join (isAbsolute_eq_false hname.slash), names_eq_singleton hname.ne_empty hname.slash,
    List.getLast?_concat]

/-! ### Extensions -/

/-- A path **has an extension** when the name of its file has something before a dot, and the
extension behind it. -/
def HasExtension (p : Path) (ext : String) : Prop :=
  ∃ stem, stem ≠ "" ∧ p.fileName? = some (stem ++ "." ++ ext)

/-- The extension of a path stands behind the last dot of the name of its file. -/
theorem extension?_eq_some_iff {p : Path} {ext : String} (hext : '.' ∉ ext.toList) :
    p.extension? = some ext ↔ p.HasExtension ext := by
  rw [extension?, Option.bind_eq_some_iff]
  constructor
  · rintro ⟨name, hname, h⟩
    have hsplit := List.takeWhile_append_dropWhile (p := (· ≠ '.')) (l := name.toList.reverse)
    have hdot := List.head?_dropWhile_not (· ≠ '.') name.toList.reverse
    dsimp only at h
    split at h
    · cases h
    · cases h
    · rename_i dot c before hdrop
      rw [hdrop] at hdot hsplit
      obtain rfl : dot = '.' := by simpa using hdot
      generalize name.toList.reverse.takeWhile (· ≠ '.') = after at hsplit h
      obtain rfl := Option.some.inj h
      refine ⟨String.ofList (c :: before).reverse, by simp, hname.trans (congrArg some ?_)⟩
      rw [← String.toList_inj, ← List.reverse_inj, ← hsplit]
      simp
  · rintro ⟨stem, hne, hname⟩
    refine ⟨_, hname, ?_⟩
    have hkeep : ∀ c ∈ ext.toList.reverse, (decide (c ≠ '.')) = true := fun c hc => by
      simpa using fun h : c = '.' => hext (h ▸ List.mem_reverse.mp hc)
    have hreverse : (stem ++ "." ++ ext).toList.reverse =
        ext.toList.reverse ++ '.' :: stem.toList.reverse := by
      simp
    dsimp only
    rw [hreverse, List.dropWhile_append_of_pos hkeep, List.takeWhile_append_of_pos hkeep]
    cases hstem : stem.toList.reverse with
    | nil => exact absurd (by simpa using hstem) hne
    | cons c before => simp

end ProviderDiscovery.Path
