import ProviderDiscovery.Files.Path

/-!
# Joining paths

A name that is seen from a path that ends in a slash is put behind it. Joining a folder and then a
name in it is the same as joining both at once, and the names of the path grow by that name.
-/

namespace ProviderDiscovery.Path

/-- A name without slashes is not absolute. -/
theorem isAbsolute_eq_false {name : String} (h : '/' ∉ name.toList) :
    (mk name).isAbsolute = false := by
  cases hchars : name.toList with
  | nil => simp [isAbsolute, hchars]
  | cons c rest =>
    rw [hchars] at h
    simp only [isAbsolute, hchars, List.head?_cons]
    exact beq_eq_false_iff_ne.mpr fun hc => h (Option.some.inj hc ▸ List.mem_cons_self)

/-- A path ends in a slash if and only if there is a slash behind the other characters. -/
theorem endsInSlash_iff {p : Path} : p.endsInSlash ↔ ∃ front, p.text.toList = front ++ ['/'] := by
  rw [endsInSlash, beq_iff_eq, List.getLast?_eq_some_iff]

theorem join_of_endsInSlash {p : Path} {name : String} (hp : p.endsInSlash)
    (hname : (mk name).isAbsolute = false) : p.join name = ⟨p.text ++ name⟩ := by
  simp [join, hp, hname]

/-- Whether a text is absolute is seen at its start. -/
theorem isAbsolute_append {part : String} (hpart : part ≠ "") (name : String) :
    (mk (part ++ name)).isAbsolute = (mk part).isAbsolute := by
  rw [isAbsolute, isAbsolute, String.toList_append]
  cases hchars : part.toList with
  | nil => exact absurd (String.toList_eq_nil_iff.mp hchars) hpart
  | cons c rest => rfl

/-- All names that are not absolute are put behind the same text. -/
theorem exists_join_eq (p : Path) :
    ∃ start : String, ∀ name, (mk name).isAbsolute = false → p.join name = ⟨start ++ name⟩ := by
  cases hstart : p.text = "" || p.endsInSlash with
  | true => exact ⟨p.text, fun name hname => by simp only [join, hname, hstart]; rfl⟩
  | false => exact ⟨p.text ++ "/", fun name hname => by simp only [join, hname, hstart]; rfl⟩

/-- A path ends in a slash when a folder that does is joined. -/
theorem endsInSlash_join {part : String} (hpart : (mk part).isAbsolute = false)
    (hslash : (mk part).endsInSlash) (p : Path) : (p.join part).endsInSlash := by
  obtain ⟨start, hstart⟩ := p.exists_join_eq
  obtain ⟨front, hfront⟩ := endsInSlash_iff.mp hslash
  refine endsInSlash_iff.mpr ⟨start.toList ++ front, ?_⟩
  rw [hstart part hpart, String.toList_append, List.append_assoc]
  exact congrArg (start.toList ++ ·) hfront

/-- Joining a folder and then a name joins both at once. -/
theorem join_join {part name : String} (hpart : (mk part).isAbsolute = false)
    (hslash : (mk part).endsInSlash) (hname : (mk name).isAbsolute = false) (p : Path) :
    (p.join part).join name = p.join (part ++ name) := by
  obtain ⟨start, hstart⟩ := p.exists_join_eq
  have hne : part ≠ "" := by
    rintro rfl
    cases hslash
  rw [join_of_endsInSlash (endsInSlash_join hpart hslash p) hname, hstart part hpart,
    hstart (part ++ name) ((isAbsolute_append hne name).trans hpart), String.append_assoc]

/-! ### Names -/

/-- A **plain name** is one that a folder can have for something in it. -/
structure IsPlain (name : String) : Prop where
  ne_empty : name ≠ ""
  ne_dot : name ≠ "."
  ne_dots : name ≠ ".."
  slash : '/' ∉ name.toList

/-- A path without names holds nothing but slashes. -/
theorem isAbsolute_of_names_eq_nil {p : Path} (hne : p.text ≠ "") (h : p.names = []) :
    p.isAbsolute := by
  rw [isAbsolute]
  cases hchars : p.text.toList with
  | nil => exact absurd (String.toList_eq_nil_iff.mp hchars) hne
  | cons c rest =>
    by_cases hc : c = '/'
    · rw [hc]
      rfl
    · have hsegment : ∃ s more, Text.segments '/' (c :: rest) = (c :: s) :: more := by
        rw [Text.segments, if_neg hc]
        split
        · exact ⟨_, _, rfl⟩
        · exact ⟨_, _, rfl⟩
      obtain ⟨s, more, hsegment⟩ := hsegment
      simp [names, hchars, hsegment] at h

/-- A slash between two texts keeps the names of both. -/
theorem names_append_slash (part name : String) :
    (mk (part ++ "/" ++ name)).names = (mk part).names ++ (mk name).names := by
  have hchars : (part ++ "/" ++ name).toList = part.toList ++ '/' :: name.toList := by
    rw [String.toList_append, String.toList_append, List.append_assoc]
    rfl
  rw [names, hchars, Text.segments_append_cons, List.filter_append, List.map_append, names, names]

/-- The names of what is joined come behind those of the path. -/
theorem names_join {name : String} (hname : (mk name).isAbsolute = false) (p : Path) :
    (p.join name).names = p.names ++ (mk name).names := by
  by_cases hempty : p.text = ""
  · have hjoin : p.join name = ⟨name⟩ := by simp [join, hname, hempty]
    have hnames : p.names = [] := by
      rw [names, hempty]
      rfl
    rw [hjoin, hnames, List.nil_append]
  · cases hslash : p.endsInSlash with
    | false =>
      have hjoin : p.join name = ⟨p.text ++ "/" ++ name⟩ := by simp [join, hname, hempty, hslash]
      rw [hjoin, names_append_slash]
    | true =>
      obtain ⟨front, hfront⟩ := endsInSlash_iff.mp hslash
      have htext : p.text = String.ofList front ++ "/" := by
        rw [← String.toList_inj, hfront, String.toList_append, String.toList_ofList]
        rfl
      have hpath : p = ⟨String.ofList front ++ "/" ++ ""⟩ := by
        rw [String.append_empty, ← htext]
      rw [join_of_endsInSlash hslash hname, htext, names_append_slash, hpath, names_append_slash]
      simp [names, Text.segments]

/-- A text without slashes is its only name. -/
theorem names_eq_singleton {name : String} (hne : name ≠ "") (hname : '/' ∉ name.toList) :
    (mk name).names = [name] := by
  have hnil : name.toList ≠ [] := fun hnil => hne (String.toList_eq_nil_iff.mp hnil)
  rw [names, Text.segments_eq_singleton hname]
  simp [hnil]

/-- What is joined starts where the path starts. -/
theorem isAbsolute_join {name : String} (hname : (mk name).isAbsolute = false) (p : Path) :
    (p.join name).isAbsolute = p.isAbsolute := by
  by_cases hempty : p.text = ""
  · have hjoin : p.join name = ⟨name⟩ := by simp [join, hname, hempty]
    rw [hjoin, hname, isAbsolute, hempty]
    rfl
  · cases hslash : p.endsInSlash with
    | false =>
      have hjoin : p.join name = ⟨p.text ++ ("/" ++ name)⟩ := by
        simp [join, hname, hempty, hslash, String.append_assoc]
      rw [hjoin, isAbsolute_append hempty]
    | true => rw [join_of_endsInSlash hslash hname, isAbsolute_append hempty]

/-! ### Locations -/

/-- The text of a location: its names with slashes between them. -/
def textOf (location : List String) : String := "/".intercalate location

theorem toList_textOf (location : List String) :
    (textOf location).toList = ['/'].intercalate (location.map String.toList) := by
  rw [textOf, String.toList_intercalate]
  rfl

/-- The slashes in the text of a location stand between its names. -/
theorem segments_textOf {location : List String} (hne : location ≠ [])
    (h : ∀ name ∈ location, IsPlain name) :
    Text.segments '/' (textOf location).toList = location.map String.toList := by
  rw [toList_textOf, Text.segments_intercalate (by simpa using hne)]
  simpa using fun name hname => (h name hname).slash

theorem ne_nil_of_mem_map_toList {location : List String} (h : ∀ name ∈ location, IsPlain name)
    {s : List Char} (hs : s ∈ location.map String.toList) : s ≠ [] := by
  obtain ⟨name, hname, rfl⟩ := List.mem_map.mp hs
  exact fun hnil => (h name hname).ne_empty (String.toList_eq_nil_iff.mp hnil)

/-- The text of a location has the names of the location. -/
theorem names_textOf {location : List String} (h : ∀ name ∈ location, IsPlain name) :
    (mk (textOf location)).names = location := by
  by_cases hne : location = []
  · rw [hne]
    rfl
  · rw [names, segments_textOf hne h, List.filter_eq_self.mpr fun s hs => ?_, List.map_map]
    · simp [Function.comp_def]
    · simpa using ne_nil_of_mem_map_toList h hs

/-- The text of a location does not end in a slash. -/
theorem endsInSlash_textOf {location : List String} (hne : location ≠ [])
    (h : ∀ name ∈ location, IsPlain name) : (mk (textOf location)).endsInSlash = false := by
  refine Bool.eq_false_iff.mpr fun hslash => ?_
  obtain ⟨front, hfront⟩ := endsInSlash_iff.mp hslash
  have hsegments := segments_textOf hne h
  rw [hfront, Text.segments_append_cons] at hsegments
  have hmem : [] ∈ location.map String.toList := by
    rw [← hsegments]
    exact List.mem_append_right _ List.mem_cons_self
  exact ne_nil_of_mem_map_toList h hmem rfl

/-- The text of a location is not absolute. -/
theorem isAbsolute_textOf {location : List String} (h : ∀ name ∈ location, IsPlain name) :
    (mk (textOf location)).isAbsolute = false := by
  cases location with
  | nil => rfl
  | cons name rest =>
    have hname := h name List.mem_cons_self
    have hstart : ∃ more, textOf (name :: rest) = name ++ more := by
      cases rest with
      | nil => exact ⟨"", by simp [textOf]⟩
      | cons n more => exact ⟨_, by rw [textOf, String.intercalate_cons_cons, String.append_assoc]⟩
    obtain ⟨more, hmore⟩ := hstart
    rw [hmore, isAbsolute_append hname.ne_empty, isAbsolute_eq_false hname.slash]

/-- A location is given by its text. -/
theorem textOf_inj {location other : List String} (h : ∀ name ∈ location, IsPlain name)
    (hother : ∀ name ∈ other, IsPlain name) :
    textOf location = textOf other ↔ location = other := by
  refine ⟨fun htext => ?_, congrArg textOf⟩
  rw [← names_textOf h, htext, names_textOf hother]

end ProviderDiscovery.Path
