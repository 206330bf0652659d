import LogIt.Configuration.Impl.Builtins

namespace LogIt.BuiltinConfigurationMaterializer

open ConfigurationValue (Kind)

section SetDefaults

variable (fields defaults : ConfigurationFieldMap)

theorem lookup_setDefault (field : String × ConfigurationValue) (name : String)
    : (setDefault fields field).lookup name
        = (fields.lookup name).or (if name == field.1 then some field.2 else none) := by
  unfold setDefault has
  split
  . next h =>
    obtain ⟨value, hvalue⟩ := Option.isSome_iff_exists.mp h
    cases hname : name == field.1 with
    | true =>
      rw [eq_of_beq hname, hvalue]
      rfl
    | false => simp
  . next h =>
    rw [Table.lookup_assignEntry]
    cases hname : name == field.1 with
    | true =>
      rw [eq_of_beq hname]
      rw [Bool.not_eq_true, Option.isSome_eq_false_iff, Option.isNone_iff_eq_none] at h
      rw [h]
      rfl
    | false => simp

theorem lookup_setDefaults (name : String)
    : (setDefaults fields defaults).lookup name = (fields.lookup name).or (defaults.lookup name) := by
  unfold setDefaults
  induction defaults generalizing fields with
  | nil => simp
  | cons field defaults ih =>
    rw [List.foldl_cons, ih, lookup_setDefault, Option.or_assoc]
    congr 1
    rw [List.lookup_cons]
    cases name == field.1 with
    | true => rfl
    | false => rfl

variable {fields defaults}

theorem mem_setDefaults (h : field ∈ setDefaults fields defaults)
    : field ∈ fields ∨ field ∈ defaults := by
  unfold setDefaults at h
  induction defaults generalizing fields with
  | nil => exact .inl h
  | cons default defaults ih =>
    cases ih h with
    | inr h => exact .inr (List.mem_cons_of_mem _ h)
    | inl h =>
      unfold setDefault at h
      split at h
      . exact .inl h
      . cases Table.mem_assignEntry h with
        | inl h =>
          rw [h]
          exact .inr List.mem_cons_self
        | inr h => exact .inl h

theorem setDefaults_eq_self (h : ∀ field ∈ defaults, has fields field.1 = true)
    : setDefaults fields defaults = fields := by
  unfold setDefaults
  induction defaults with
  | nil => rfl
  | cons field defaults ih =>
    rw [List.forall_mem_cons] at h
    rw [List.foldl_cons, setDefault, if_pos h.1]
    exact ih h.2

theorem has_of_mem (h : field ∈ fields) : has fields field.1 = true := by
  unfold has
  rw [List.lookup_isSome_iff]
  exact ⟨field, h, beq_self_eq_true _⟩

theorem has_setDefaults (h : field ∈ defaults)
    : has (setDefaults fields defaults) field.1 = true := by
  unfold has
  rw [lookup_setDefaults, Option.isSome_or, Bool.or_eq_true]
  exact .inr (has_of_mem h)

end SetDefaults

section Merge

variable (fields : ConfigurationFieldMap) (name : String) (defaults : ConfigurationFieldMap)

def mergedObject (value : Option ConfigurationValue) : ConfigurationValue :=
  match value with
  | none => .object defaults
  | some (.object observed) => .object (setDefaults observed defaults)
  | some value => value

theorem lookup_mergeObjectDefaults (name' : String)
    : (mergeObjectDefaults fields name defaults).lookup name'
        = if name' == name then some (mergedObject defaults (fields.lookup name))
          else fields.lookup name' := by
  have hkept {value : ConfigurationValue} (h : fields.lookup name = some value)
      : fields.lookup name' = if name' == name then some value else fields.lookup name' := by
    split
    . next hname => rw [eq_of_beq hname, h]
    . rfl
  unfold mergeObjectDefaults mergedObject
  cases h : fields.lookup name with
  | none => exact Table.lookup_assignEntry ..
  | some value =>
    cases value with
    | object observed => exact Table.lookup_assignEntry ..
    | null | boolean value | signed value | unsigned value | string value | array value =>
      exact hkept h

theorem mergedObject_twice (value : Option ConfigurationValue)
    : mergedObject defaults (some (mergedObject defaults value)) = mergedObject defaults value := by
  cases value with
  | none =>
    unfold mergedObject
    dsimp only
    rw [setDefaults_eq_self (fun field hfield => has_of_mem hfield)]
  | some value =>
    cases value with
    | object observed =>
      unfold mergedObject
      dsimp only
      rw [setDefaults_eq_self (fun field hfield => has_setDefaults hfield)]
    | null | boolean value | signed value | unsigned value | string value | array value => rfl

variable {fields name defaults}

theorem mem_mergeObjectDefaults (h : field ∈ mergeObjectDefaults fields name defaults)
    : field ∈ fields ∨ field.1 = name := by
  unfold mergeObjectDefaults at h
  split at h
  . cases Table.mem_assignEntry h with
    | inl h =>
      rw [h]
      exact .inr rfl
    | inr h => exact .inl h
  . cases Table.mem_assignEntry h with
    | inl h =>
      rw [h]
      exact .inr rfl
    | inr h => exact .inl h
  . exact .inl h

end Merge

section Apply

variable (type : String) (fields : ConfigurationFieldMap)

theorem lookup_applyDefaults (hname : name ≠ "format")
    : (applyDefaults type fields).lookup name
        = (fields.lookup name).or ((fieldDefaults type).lookup name) := by
  unfold applyDefaults
  dsimp only
  rw [lookup_setDefaults]
  split
  . rfl
  . rw [lookup_mergeObjectDefaults, beq_false_of_ne hname]
    rfl

theorem lookup_format_applyDefaults (hformat : formatDefaults type = some format)
    : (applyDefaults type fields).lookup "format"
        = some (mergedObject format (fields.lookup "format")) := by
  unfold applyDefaults
  dsimp only
  rw [lookup_setDefaults, hformat]
  dsimp only
  rw [lookup_mergeObjectDefaults]
  rfl

theorem lookup_applyDefaults_twice (name : String)
    : (applyDefaults type (applyDefaults type fields)).lookup name
        = (applyDefaults type fields).lookup name := by
  by_cases hname : name = "format"
  . rw [hname]
    cases hformat : formatDefaults type with
    | some format =>
      rw [lookup_format_applyDefaults _ _ hformat, lookup_format_applyDefaults _ _ hformat,
        mergedObject_twice]
    | none =>
      unfold applyDefaults
      simp only [hformat, lookup_setDefaults, Option.or_assoc, Option.or_self]
  . simp only [lookup_applyDefaults _ _ hname, Option.or_assoc, Option.or_self]

variable {type fields}

theorem mem_applyDefaults (h : field ∈ applyDefaults type fields)
    : field ∈ fields ∨ field ∈ fieldDefaults type
        ∨ (field.1 = "format" ∧ (formatDefaults type).isSome = true) := by
  unfold applyDefaults at h
  dsimp only at h
  cases mem_setDefaults h with
  | inr h => exact .inr (.inl h)
  | inl h =>
    split at h
    . exact .inl h
    . next hformat =>
      rw [hformat]
      cases mem_mergeObjectDefaults h with
      | inl h => exact .inl h
      | inr h => exact .inr (.inr ⟨h, rfl⟩)

end Apply
end LogIt.BuiltinConfigurationMaterializer
