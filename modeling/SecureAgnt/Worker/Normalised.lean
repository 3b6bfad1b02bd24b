/-
What normalisation does to an action.

Five families of names are rewritten one after the other over one map.  No name is in two
of them, so every family takes its value from the fields the skill gave, `canonical_fields`
says where each field of the result comes from, and a second normalisation finds nothing
to do.
-/
import SecureAgnt.Worker.Action

namespace SecureAgnt
namespace Worker

/-- The canonical fields with their aliases, in the order they are rewritten. -/
def argFamilies : List (String × List String) :=
  [("path", ["file_path", "filepath", "source_path"]),
    ("destination", ["to", "recipient", "recipient_id"]),
    ("source", ["from", "sender", "sender_id"]),
    ("scope", ["scope_name", "scope-name"]),
    ("template_id", ["template", "template-id", "template_name"])]

def familyNames (family : String × List String) : List String := family.1 :: family.2

def familiesNames (families : List (String × List String)) : List String :=
  families.flatMap familyNames

/-- The value of the first name of a family that is present. -/
def familyValue (fields : List (String × Json)) (family : String × List String) : Option Json :=
  (familyNames family).findSome? (Json.obj fields).get?

def withoutNames (names : List String) (fields : List (String × Json)) : List (String × Json) :=
  fields.filter fun field => field.1 ∉ names

/-- The canonical field of a family, if it has a value. -/
def familyField (fields : List (String × Json)) (family : String × List String) :
    List (String × Json) :=
  ((familyValue fields family).map (family.1, ·)).toList

section Fields

variable {fields : List (String × Json)} {names : List String} {name key : String}

theorem findSome?_congr {f g : String → Option Json} (h : ∀ name ∈ names, f name = g name) :
    names.findSome? f = names.findSome? g := by
  induction names with
  | nil => rfl
  | cons first rest ih =>
    rw [List.findSome?_cons, List.findSome?_cons, h first List.mem_cons_self,
      ih fun name hname => h name (List.mem_cons_of_mem _ hname)]

theorem withoutNames_append (more : List (String × Json)) :
    withoutNames names (fields ++ more) = withoutNames names fields ++ withoutNames names more :=
  List.filter_append ..

theorem get?_removeField (h : key ≠ name) :
    (Json.obj (Json.removeField name fields)).get? key = (Json.obj fields).get? key := by
  induction fields with
  | nil => rfl
  | cons first rest ih =>
    obtain ⟨k, v⟩ := first
    by_cases hk : k = name
    · have hkey : k ≠ key := fun hkey => h (hkey.symm.trans hk)
      simp only [Json.removeField, List.filter_cons, hk, beq_self_eq_true, Bool.not_true,
        Bool.false_eq_true, if_false] at ih ⊢
      rw [ih, Json.get?_obj_cons, if_neg (hk ▸ hkey)]
    · simp only [Json.removeField, List.filter_cons, beq_eq_false_iff_ne.mpr hk, Bool.not_false,
        if_true] at ih ⊢
      rw [Json.get?_obj_cons, Json.get?_obj_cons, ih]

theorem removeField_eq : Json.removeField name fields = withoutNames [name] fields := by
  unfold Json.removeField withoutNames
  refine List.filter_congr ?_
  intro field _
  by_cases h : field.1 = name <;> simp [h]

theorem withoutNames_withoutNames (more : List String) :
    withoutNames more (withoutNames names fields) = withoutNames (names ++ more) fields := by
  unfold withoutNames
  rw [List.filter_filter]
  refine List.filter_congr ?_
  intro field _
  by_cases hnames : field.1 ∈ names <;> by_cases hmore : field.1 ∈ more <;> simp [hnames, hmore]

theorem get?_withoutNames (h : key ∉ names) :
    (Json.obj (withoutNames names fields)).get? key = (Json.obj fields).get? key := by
  induction names generalizing fields with
  | nil => simp [withoutNames]
  | cons first rest ih =>
    have hsplit : withoutNames (first :: rest) fields =
        withoutNames rest (withoutNames [first] fields) := by
      rw [withoutNames_withoutNames]
      rfl
    have hrest : key ∉ rest := fun hmem => h (List.mem_cons_of_mem _ hmem)
    have hfirst : key ≠ first := fun hmem => h (hmem ▸ List.mem_cons_self)
    rw [hsplit, ih hrest, ← removeField_eq, get?_removeField hfirst]

theorem get?_eq_none_of_withoutNames (h : key ∈ names) :
    (Json.obj (withoutNames names fields)).get? key = none := by
  have hnone : (withoutNames names fields).find? (fun field => field.1 == key) = none := by
    refine List.find?_eq_none.mpr ?_
    intro field hfield hkey
    have hmem := (List.mem_filter.mp hfield).2
    rw [beq_iff_eq] at hkey
    simp [hkey, h] at hmem
  simp [Json.get?, hnone]

theorem insertField_of_get?_none {value : Json} (h : (Json.obj fields).get? key = none) :
    Json.insertField key value fields = fields ++ [(key, value)] := by
  induction fields with
  | nil => rfl
  | cons first rest ih =>
    obtain ⟨k, v⟩ := first
    rw [Json.get?_obj_cons] at h
    by_cases hk : k = key
    · rw [if_pos hk] at h
      cases h
    · rw [if_neg hk] at h
      simp only [Json.insertField, beq_eq_false_iff_ne.mpr hk, List.cons_append]
      rw [if_neg Bool.false_ne_true, ih h]

theorem get?_append (more : List (String × Json)) :
    (Json.obj (fields ++ more)).get? key =
      ((Json.obj fields).get? key).or ((Json.obj more).get? key) := by
  induction fields with
  | nil => rfl
  | cons first rest ih =>
    obtain ⟨k, v⟩ := first
    rw [List.cons_append, Json.get?_obj_cons, Json.get?_obj_cons, ih]
    by_cases hk : k = key <;> simp [hk]

end Fields

/-! ## One family -/

section Family

variable {fields : List (String × Json)} {family : String × List String} {key : String}

theorem foldl_takeAlias {aliases : List String} (value : Option Json) (hnodup : aliases.Nodup) :
    aliases.foldl takeAlias (value, fields) =
      (value.or (aliases.findSome? (Json.obj fields).get?), withoutNames aliases fields) := by
  induction aliases generalizing value fields with
  | nil => simp [withoutNames]
  | cons first rest ih =>
    obtain ⟨hfirst, hrest⟩ := List.nodup_cons.mp hnodup
    have hlater : rest.findSome? (Json.obj (Json.removeField first fields)).get? =
        rest.findSome? (Json.obj fields).get? := by
      refine findSome?_congr ?_
      intro name hname
      exact get?_removeField fun h => hfirst (h ▸ hname)
    rw [List.foldl_cons, takeAlias, ih _ hrest, hlater, removeField_eq, withoutNames_withoutNames]
    refine Prod.ext ?_ rfl
    show (value.or ((Json.obj fields).get? first)).or _ = value.or _
    rw [List.findSome?_cons, Option.or_assoc]
    cases (Json.obj fields).get? first <;> rfl

theorem canonicalizeActionArgAlias_eq (hnodup : (familyNames family).Nodup) :
    canonicalizeActionArgAlias family.1 family.2 fields =
      withoutNames (familyNames family) fields ++ familyField fields family := by
  obtain ⟨hcanonical, haliases⟩ := List.nodup_cons.mp hnodup
  have hlater : family.2.findSome? (Json.obj (Json.removeField family.1 fields)).get? =
      family.2.findSome? (Json.obj fields).get? := by
    refine findSome?_congr ?_
    intro name hname
    exact get?_removeField fun h => hcanonical (h ▸ hname)
  have hvalue : ((Json.obj fields).get? family.1).or (family.2.findSome? (Json.obj fields).get?) =
      familyValue fields family := by
    unfold familyValue familyNames
    rw [List.findSome?_cons]
    cases (Json.obj fields).get? family.1 <;> rfl
  have hrest : withoutNames family.2 (Json.removeField family.1 fields) =
      withoutNames (familyNames family) fields := by
    rw [removeField_eq, withoutNames_withoutNames]
    rfl
  unfold canonicalizeActionArgAlias familyField
  rw [foldl_takeAlias _ haliases, hlater, hvalue, hrest]
  cases familyValue fields family with
  | none => exact (List.append_nil _).symm
  | some value =>
    exact insertField_of_get?_none (get?_eq_none_of_withoutNames List.mem_cons_self)

theorem get?_familyField (h : key ≠ family.1) :
    (Json.obj (familyField fields family)).get? key = none := by
  unfold familyField
  cases familyValue fields family with
  | none => rfl
  | some value =>
    show (Json.obj [(family.1, value)]).get? key = none
    rw [Json.get?_obj_cons, if_neg fun hkey => h hkey.symm]
    rfl

/-- A family leaves the fields of every other name. -/
theorem get?_canonicalize (h : key ∉ familyNames family) :
    (Json.obj (withoutNames (familyNames family) fields ++ familyField fields family)).get? key =
      (Json.obj fields).get? key := by
  have hcanonical : key ≠ family.1 := fun hkey => h (hkey ▸ List.mem_cons_self)
  rw [get?_append, get?_withoutNames h, get?_familyField hcanonical, Option.or_none]

theorem withoutNames_familyField {names : List String} (h : family.1 ∉ names) :
    withoutNames names (familyField fields family) = familyField fields family := by
  refine List.filter_eq_self.mpr ?_
  intro field hfield
  unfold familyField at hfield
  rw [Option.mem_toList, Option.map_eq_some_iff] at hfield
  obtain ⟨value, -, rfl⟩ := hfield
  simpa using h

end Family

/-! ## All families -/

section Families

variable {fields : List (String × Json)} {families : List (String × List String)}

theorem familyField_congr {fields' : List (String × Json)} {family : String × List String}
    (h : ∀ key ∈ familyNames family, (Json.obj fields').get? key = (Json.obj fields).get? key) :
    familyField fields' family = familyField fields family := by
  unfold familyField familyValue
  rw [findSome?_congr h]

/-- Rewritten in turn, each family takes its value from the fields given at first. -/
theorem foldl_canonicalize (hnodup : (familiesNames families).Nodup) :
    families.foldl (fun fields family => canonicalizeActionArgAlias family.1 family.2 fields)
      fields =
        withoutNames (familiesNames families) fields ++ families.flatMap (familyField fields) := by
  induction families generalizing fields with
  | nil => simp [familiesNames, withoutNames]
  | cons family rest ih =>
    have hnames : familiesNames (family :: rest) = familyNames family ++ familiesNames rest :=
      List.flatMap_cons ..
    rw [hnames] at hnodup ⊢
    obtain ⟨hfamily, hrest, hdisjoint⟩ := List.nodup_append.mp hnodup
    have hcanonical : family.1 ∉ familiesNames rest :=
      fun hmem => hdisjoint _ List.mem_cons_self _ hmem rfl
    have hlater : rest.flatMap (familyField (withoutNames (familyNames family) fields ++
        familyField fields family)) = rest.flatMap (familyField fields) := by
      refine List.flatMap_congr ?_
      intro other hother
      refine familyField_congr ?_
      intro key hkey
      refine get?_canonicalize ?_
      intro hmem
      exact hdisjoint _ hmem _ (List.mem_flatMap.mpr ⟨other, hother, hkey⟩) rfl
    rw [List.foldl_cons, canonicalizeActionArgAlias_eq hfamily, ih hrest, hlater]
    rw [withoutNames_append, withoutNames_withoutNames, withoutNames_familyField hcanonical,
      List.append_assoc, List.flatMap_cons]

end Families

/-! ## Trimming -/

def trimIn (names : List String) (field : String × Json) : String × Json :=
  if field.1 ∈ names then (field.1, trimString field.2) else field

theorem trimString_trimString (value : Json) : trimString (trimString value) = trimString value := by
  cases value with
  | str text => exact congrArg Json.str (Text.trim_trim text)
  | _ => rfl

theorem trimIn_trimIn {names more : List String} (h : ∀ name ∈ names, name ∈ more)
    (field : String × Json) : trimIn more (trimIn names field) = trimIn more field := by
  unfold trimIn
  by_cases hnames : field.1 ∈ names
  · have hmore := h _ hnames
    simp [hnames, hmore, trimString_trimString]
  · rw [if_neg hnames]

theorem foldl_trimField (names : List String) (fields : List (String × Json)) :
    names.foldl trimField fields = fields.map (trimIn names) := by
  induction names generalizing fields with
  | nil =>
    have hid : trimIn [] = id := by
      funext field
      simp [trimIn]
    rw [hid, List.map_id]
    rfl
  | cons name rest ih =>
    rw [List.foldl_cons, ih, trimField, List.map_map]
    refine List.map_congr_left ?_
    intro field _
    show trimIn rest (if field.1 = name then (field.1, trimString field.2) else field) = _
    by_cases hname : field.1 = name
    · simp [trimIn, hname, trimString_trimString]
    · by_cases hrest : field.1 ∈ rest
      · simp [trimIn, hname, hrest]
      · simp [trimIn, hname, hrest]

/-- The field of a family after normalisation. -/
def normalField (fields : List (String × Json)) (family : String × List String) :
    List (String × Json) :=
  ((familyValue fields family).map fun value => (family.1, trimString value)).toList

def normalFields (fields : List (String × Json)) : List (String × Json) :=
  withoutNames (familiesNames argFamilies) fields ++ argFamilies.flatMap (normalField fields)

theorem nodup_argFamilies : (familiesNames argFamilies).Nodup := by decide +kernel

theorem canonicalizeActionArgAliases_eq (fields : List (String × Json)) :
    canonicalizeActionArgAliases fields =
      (withoutNames (familiesNames argFamilies) fields ++
        argFamilies.flatMap (familyField fields)).map
          (trimIn ["path", "destination", "scope", "template_id"]) := by
  rw [← foldl_canonicalize nodup_argFamilies, ← foldl_trimField]
  rfl

theorem map_trimIn_withoutNames {names more : List String} (h : ∀ name ∈ more, name ∈ names)
    (fields : List (String × Json)) :
    (withoutNames names fields).map (trimIn more) = withoutNames names fields := by
  refine (List.map_congr_left ?_).trans (List.map_id _)
  intro field hfield
  have hnot : field.1 ∉ names := by simpa using (List.mem_filter.mp hfield).2
  exact if_neg fun hmem => hnot (h _ hmem)

theorem map_trimIn_familyField {names : List String} {family : String × List String}
    (h : family.1 ∈ names) (fields : List (String × Json)) :
    (familyField fields family).map (trimIn names) = normalField fields family := by
  unfold familyField normalField
  cases familyValue fields family with
  | none => rfl
  | some value =>
    show [trimIn names (family.1, value)] = [(family.1, trimString value)]
    rw [trimIn, if_pos h]

/-- The fields of other names stay, and each family has its one field. -/
theorem normalizeArgs_obj (fields : List (String × Json)) :
    normalizeArgs (.obj fields) = .obj (normalFields fields) := by
  have hnames : ∀ name ∈ ["path", "destination", "scope", "template_id"],
      name ∈ ["path", "destination", "source", "scope", "template_id"] := by simp
  have hfamilies : ∀ name ∈ ["path", "destination", "source", "scope", "template_id"],
      name ∈ familiesNames argFamilies := by simp [familiesNames, familyNames, argFamilies]
  have hcanonical : ∀ family ∈ argFamilies,
      family.1 ∈ ["path", "destination", "source", "scope", "template_id"] := by
    simp [argFamilies]
  rw [normalizeArgs, normalFields, foldl_trimField, canonicalizeActionArgAliases_eq, List.map_map]
  have htrim : trimIn ["path", "destination", "source", "scope", "template_id"] ∘
      trimIn ["path", "destination", "scope", "template_id"] =
        trimIn ["path", "destination", "source", "scope", "template_id"] :=
    funext (trimIn_trimIn hnames)
  rw [htrim, List.map_append, map_trimIn_withoutNames hfamilies, List.map_flatMap]
  congr 2
  refine List.flatMap_congr ?_
  intro family hfamily
  exact map_trimIn_familyField (hcanonical family hfamily) fields

/-! ## Where each field comes from -/

section Values

variable {fields : List (String × Json)} {families : List (String × List String)}
  {family : String × List String} {key : String}

theorem get?_normalField_self :
    (Json.obj (normalField fields family)).get? family.1 =
      (familyValue fields family).map trimString := by
  unfold normalField
  cases familyValue fields family with
  | none => rfl
  | some value =>
    show (Json.obj [(family.1, trimString value)]).get? family.1 = some (trimString value)
    rw [Json.get?_obj_cons, if_pos rfl]

theorem get?_normalField (h : key ≠ family.1) :
    (Json.obj (normalField fields family)).get? key = none := by
  unfold normalField
  cases familyValue fields family with
  | none => rfl
  | some value =>
    show (Json.obj [(family.1, trimString value)]).get? key = none
    rw [Json.get?_obj_cons, if_neg fun hkey => h hkey.symm]
    rfl

theorem get?_flatMap_eq_none (h : key ∉ families.map (·.1)) :
    (Json.obj (families.flatMap (normalField fields))).get? key = none := by
  induction families with
  | nil => rfl
  | cons first rest ih =>
    simp only [List.map_cons, List.mem_cons, not_or] at h
    rw [List.flatMap_cons, get?_append, get?_normalField h.1, ih h.2]
    rfl

theorem get?_flatMap (hnodup : (families.map (·.1)).Nodup) (hmem : family ∈ families) :
    (Json.obj (families.flatMap (normalField fields))).get? family.1 =
      (familyValue fields family).map trimString := by
  induction families with
  | nil => cases hmem
  | cons first rest ih =>
    obtain ⟨hfirst, hrest⟩ := List.nodup_cons.mp hnodup
    rw [List.flatMap_cons, get?_append]
    rcases List.mem_cons.mp hmem with rfl | hmem
    · rw [get?_normalField_self, get?_flatMap_eq_none hfirst, Option.or_none]
    · have hne : family.1 ≠ first.1 :=
        fun h => hfirst (List.mem_map.mpr ⟨family, hmem, h⟩)
      rw [get?_normalField hne, ih hrest hmem]
      rfl

theorem nodup_canonical : (argFamilies.map (·.1)).Nodup := by decide +kernel

theorem mem_familiesNames (hfamily : family ∈ argFamilies) (hkey : key ∈ familyNames family) :
    key ∈ familiesNames argFamilies := List.mem_flatMap.mpr ⟨family, hfamily, hkey⟩

/-- A canonical field has the first value of its family, without the spaces around it. -/
theorem canonical_fields (hmem : family ∈ argFamilies) :
    (Json.obj (normalFields fields)).get? family.1 =
      (familyValue fields family).map trimString := by
  unfold normalFields
  rw [get?_append, get?_eq_none_of_withoutNames (mem_familiesNames hmem List.mem_cons_self),
    Option.none_or, get?_flatMap nodup_canonical hmem]

theorem alias_fields (hmem : family ∈ argFamilies) (hkey : key ∈ family.2) :
    (Json.obj (normalFields fields)).get? key = none := by
  have hall : (argFamilies.all fun family => family.2.all fun name =>
      name ∉ argFamilies.map (·.1)) = true := by decide +kernel
  have hnot := of_decide_eq_true (List.all_eq_true.mp (List.all_eq_true.mp hall family hmem) key hkey)
  unfold normalFields
  rw [get?_append, get?_eq_none_of_withoutNames
    (mem_familiesNames hmem (List.mem_cons_of_mem _ hkey)), get?_flatMap_eq_none hnot]
  rfl

theorem other_fields (hkey : key ∉ familiesNames argFamilies) :
    (Json.obj (normalFields fields)).get? key = (Json.obj fields).get? key := by
  have hnot : key ∉ argFamilies.map (·.1) := by
    intro hmem
    obtain ⟨family, hfamily, rfl⟩ := List.mem_map.mp hmem
    exact hkey (mem_familiesNames hfamily List.mem_cons_self)
  unfold normalFields
  rw [get?_append, get?_withoutNames hkey, get?_flatMap_eq_none hnot, Option.or_none]

/-- What a second normalisation finds. -/
theorem familyValue_normalFields (hmem : family ∈ argFamilies) :
    familyValue (normalFields fields) family = (familyValue fields family).map trimString := by
  have haliases : family.2.findSome? (Json.obj (normalFields fields)).get? = none :=
    List.findSome?_eq_none_iff.mpr fun key hkey => alias_fields hmem hkey
  have hsplit : familyValue (normalFields fields) family =
      ((Json.obj (normalFields fields)).get? family.1).or
        (family.2.findSome? (Json.obj (normalFields fields)).get?) := by
    unfold familyValue familyNames
    rw [List.findSome?_cons]
    cases (Json.obj (normalFields fields)).get? family.1 <;> rfl
  rw [hsplit, haliases, Option.or_none, canonical_fields hmem]

theorem normalFields_normalFields (fields : List (String × Json)) :
    normalFields (normalFields fields) = normalFields fields := by
  have hothers : withoutNames (familiesNames argFamilies) (normalFields fields) =
      withoutNames (familiesNames argFamilies) fields := by
    have hnone : withoutNames (familiesNames argFamilies)
        (argFamilies.flatMap (normalField fields)) = [] := by
      refine List.filter_eq_nil_iff.mpr ?_
      intro field hfield
      obtain ⟨family, hfamily, hfield⟩ := List.mem_flatMap.mp hfield
      unfold normalField at hfield
      rw [Option.mem_toList, Option.map_eq_some_iff] at hfield
      obtain ⟨value, -, rfl⟩ := hfield
      have hname : family.1 ∈ familiesNames argFamilies :=
        mem_familiesNames hfamily List.mem_cons_self
      simpa using hname
    have htwice : withoutNames (familiesNames argFamilies)
        (withoutNames (familiesNames argFamilies) fields) =
          withoutNames (familiesNames argFamilies) fields := by
      unfold withoutNames
      rw [List.filter_filter]
      simp
    conv_lhs => rw [normalFields]
    rw [withoutNames_append, hnone, htwice, List.append_nil]
  have hfields : argFamilies.flatMap (normalField (normalFields fields)) =
      argFamilies.flatMap (normalField fields) := by
    refine List.flatMap_congr ?_
    intro family hfamily
    unfold normalField
    rw [familyValue_normalFields hfamily]
    cases familyValue fields family with
    | none => rfl
    | some value => simp [trimString_trimString]
  conv_lhs => rw [normalFields]
  rw [hothers, hfields]
  rfl

end Values

theorem normalizeArgs_normalizeArgs (args : Json) :
    normalizeArgs (normalizeArgs args) = normalizeArgs args := by
  cases args with
  | obj fields => rw [normalizeArgs_obj, normalizeArgs_obj, normalFields_normalFields]
  | _ => rfl

theorem normalizedActionType_twice (value : String) :
    normalizedActionType (normalizedActionType value) = normalizedActionType value := by
  unfold normalizedActionType
  rw [Text.trim_toAsciiLowercase, Text.trim_trim, Text.toAsciiLowercase_toAsciiLowercase]

theorem trimmed_twice (value : Option String) :
    (value.bind Text.nonEmptyTrimmed).bind Text.nonEmptyTrimmed =
      value.bind Text.nonEmptyTrimmed := by
  cases value with
  | none => rfl
  | some value =>
    rw [Option.bind_some]
    cases htrim : Text.nonEmptyTrimmed value with
    | none => rw [Option.bind_none]
    | some trimmed => rw [Option.bind_some, (Text.nonEmptyTrimmed_eq_some htrim).2]

/-- Normalising twice is normalising once. -/
theorem normalizeSkillAction_twice (action : SkillAction) :
    normalizeSkillAction (normalizeSkillAction action) = normalizeSkillAction action := by
  unfold normalizeSkillAction
  simp only [normalizedActionType_twice, trimmed_twice, normalizeArgs_normalizeArgs]

/-! ## The argument an executor reads -/

section Arguments

variable {action : SkillAction} {field value : String}

/-- Normalisation leaves no space around the text of a canonical field. -/
theorem trim_normalised_arg (hfield : field ∈ argFamilies.map (·.1))
    (h : ((normalizeSkillAction action).args.get? field).bind Json.asStr? = some value) :
    Text.trim value = value := by
  obtain ⟨family, hfamily, rfl⟩ := List.mem_map.mp hfield
  replace h : ((normalizeArgs action.args).get? family.1).bind Json.asStr? = some value := h
  cases hargs : action.args with
  | obj fields =>
    rw [hargs, normalizeArgs_obj, canonical_fields hfamily] at h
    cases hvalue : familyValue fields family with
    | none =>
      rw [hvalue] at h
      cases h
    | some given =>
      rw [hvalue] at h
      cases given with
      | str text =>
        have htext : Text.trim text = value := Option.some.inj h
        rw [← htext, Text.trim_trim]
      | _ => cases h
  | _ =>
    rw [hargs] at h
    cases h

theorem requiredTrimmedArg_eq_ok {label : String}
    (h : requiredTrimmedArg action field label = .ok value) :
    ∃ raw, (action.args.get? field).bind Json.asStr? = some raw ∧ value = Text.trim raw := by
  unfold requiredTrimmedArg at h
  cases hraw : (action.args.get? field).bind Json.asStr? with
  | none =>
    rw [hraw] at h
    cases h
  | some raw =>
    rw [hraw, Option.bind_some] at h
    cases htrim : Text.nonEmptyTrimmed raw with
    | none =>
      rw [htrim] at h
      cases h
    | some trimmed =>
      rw [htrim] at h
      cases h
      exact ⟨raw, rfl, (Text.nonEmptyTrimmed_eq_some htrim).1⟩

/-- The scope taken from a canonical field is the text an executor finds there. -/
theorem arg_of_requiredTrimmedArg {label : String} (hfield : field ∈ argFamilies.map (·.1))
    (h : requiredTrimmedArg (normalizeSkillAction action) field label = .ok value) :
    ((normalizeSkillAction action).args.get? field).bind Json.asStr? = some value := by
  obtain ⟨raw, hraw, hvalue⟩ := requiredTrimmedArg_eq_ok h
  rw [hraw, hvalue, trim_normalised_arg hfield hraw]

theorem toPolicyRequest_eq_ok {rt : WorkerRuntime} {config : WorkerConfig}
    {request : Policy.ActionRequest} (h : toPolicyRequest rt config action = .ok request) :
    request.actionType = action.actionType ∧ policyScope rt config action = .ok request.scope := by
  unfold toPolicyRequest at h
  split at h
  · cases h
  · cases hscope : policyScope rt config action with
    | error e =>
      rw [hscope] at h
      cases h
    | ok scope =>
      rw [hscope] at h
      cases h
      exact ⟨rfl, rfl⟩

end Arguments

end Worker
end SecureAgnt
