import LogIt.Configuration.Impl.Json

namespace LogIt

open List Report

def Below (front path : String) : Prop :=
  ∃ rest, path = front ++ rest

namespace Below

theorem refl (front : String) : Below front front :=
  ⟨"", String.append_empty.symm⟩

theorem append (h : Below front path) (rest : String) : Below front (path ++ rest) := by
  obtain ⟨middle, rfl⟩ := h
  exact ⟨middle ++ rest, String.append_assoc⟩

theorem trans (h : Below front path) (h' : Below path path') : Below front path' := by
  obtain ⟨rest, rfl⟩ := h'
  exact h.append rest

end Below

def Under {α : Type} (front : String) (r : Diagnosed α) : Prop :=
  ∀ diagnostic ∈ r.messages, Below front diagnostic.path

namespace Under

variable {α β : Type} {front path : String}

theorem pure (a : α) : Under front (Pure.pure a : Diagnosed α) := by
  intro diagnostic hmem
  cases hmem

theorem bind {f : α → Diagnosed β} (hr : Under front r) (hf : Under front (f r.value))
    : Under front (r >>= f) := by
  intro diagnostic hmem
  rw [messages_bind] at hmem
  cases mem_append.mp hmem with
  | inl hmem => exact hr diagnostic hmem
  | inr hmem => exact hf diagnostic hmem

theorem diagnose (h : Below front path) : Under front (LogIt.diagnose code path message) := by
  intro diagnostic hmem
  rw [LogIt.diagnose, messages_add, mem_singleton] at hmem
  rw [hmem]
  exact h

theorem diagnoseIf (h : Below front path)
    : Under front (LogIt.diagnoseIf failed code path message) := by
  unfold LogIt.diagnoseIf
  split
  . exact Under.diagnose h
  . exact Under.pure _

theorem ite [Decidable c] (hr : Under front r) (hr' : Under front r')
    : Under front (if c then r else r') := by
  split
  . exact hr
  . exact hr'

theorem forM {l : List β} {f : β → Diagnosed PUnit} (h : ∀ b ∈ l, Under front (f b))
    : Under front (ForM.forM l f) := by
  intro diagnostic hmem
  rw [messages_forM] at hmem
  obtain ⟨b, hb, hmem⟩ := mem_flatMap.mp hmem
  exact h b hb diagnostic hmem

theorem mono (h : Under path r) (hpath : Below front path) : Under front r := by
  intro diagnostic hmem
  exact hpath.trans (h diagnostic hmem)

end Under

structure Located {α : Type} (front : String) (r : Diagnosed (Written α)) : Prop where
  under : Under front r
  explained : r.messages = [] → r.value.valid = true

namespace Located

variable {α β : Type} {front path : String}

theorem pure (output : α)
    : Located front (Pure.pure { valid := true, output } : Diagnosed (Written α)) where
  under := Under.pure _
  explained _ := rfl

theorem diagnose (h : Below front path)
    : Located front (do LogIt.diagnose code path message; return written) where
  under := Under.bind (Under.diagnose h) (Under.pure _)
  explained h := by cases h

theorem mono (h : Located path r) (hpath : Below front path) : Located front r where
  under := h.under.mono hpath
  explained := h.explained

theorem after {r : Diagnosed PUnit} {r' : Diagnosed (Written α)} (hr : Under front r)
    (hr' : Located front r')
    : Located front (do r; r') where
  under := Under.bind hr hr'.under
  explained h := by
    rw [messages_bind, append_eq_nil_iff] at h
    exact hr'.explained h.2

theorem bind {γ : Type} {f : Written α → Diagnosed (Written β)} {output : Written α → Written β → γ}
    (hr : Located front r) (hf : Located front (f r.value))
    : Located front (do
        let first ← r
        let second ← f first
        return { valid := first.valid && second.valid, output := output first second }) where
  under := Under.bind hr.under (Under.bind hf.under (Under.pure _))
  explained h := by
    rw [messages_bind, messages_bind, append_eq_nil_iff,
      append_eq_nil_iff] at h
    rw [value_bind, value_bind, value_pure, hr.explained h.1,
      hf.explained h.2.1]
    rfl

end Located

namespace ConfigurationJson

theorem under_rejectUnknownFields (members : List (String × Json)) (allowed : List String)
    {path : String} (hpath : path.isEmpty = false)
    : Under path (rejectUnknownFields members allowed path) := by
  apply Under.forM
  intro field _
  apply Under.ite _ (Under.pure _)
  rw [hpath]
  apply Under.diagnose
  exact ((Below.refl path).append ".").append field.1

theorem located_unsignedValue (path : String) (value : UInt64) (preferSigned : Bool)
    : Located path (unsignedValue path value preferSigned) := by
  unfold unsignedValue
  split
  . split
    . exact Located.diagnose (Below.refl path)
    . exact Located.pure _
  . exact Located.pure _

theorem located_map {α β : Type} {front : String} {r : Diagnosed (Written α)} {output : α → β}
    (h : Located front r)
    : Located front (do
        let read ← r
        return { valid := read.valid, output := output read.output }) where
  under := Under.bind h.under (Under.pure _)
  explained hnil := by
    rw [messages_bind, append_eq_nil_iff] at hnil
    exact h.explained hnil.1

mutual

theorem located_toConfigurationValue (path : String) (preferSigned : Bool)
    : (input : Json) → Located path (toConfigurationValue path preferSigned input)
  | .null => Located.pure _
  | .boolean _ => Located.pure _
  | .unsigned value => located_unsignedValue path value preferSigned
  | .integer _ => Located.pure _
  | .float => Located.diagnose (Below.refl path)
  | .string _ => Located.pure _
  | .array items => located_map (located_toConfigurationValues path 0 items)
  | .object members => located_map (located_toConfigurationFields path [] members)
  | .binary => Located.diagnose (Below.refl path)
termination_by structural input => input

theorem located_toConfigurationValues (path : String) (index : Nat)
    : (items : List Json) → Located path (toConfigurationValues path index items)
  | [] => Located.pure _
  | item :: items => by
    apply Located.bind
    . apply (located_toConfigurationValue _ false item).mono
      exact (((Below.refl path).append "[").append (toString index)).append "]"
    . exact located_toConfigurationValues path (index + 1) items
termination_by structural items => items

theorem located_toConfigurationFields (path : String) (fields : ConfigurationFieldMap)
    : (members : List (String × Json)) → Located path (toConfigurationFields path fields members)
  | [] => Located.pure _
  | (name, member) :: members => by
    apply Located.bind
    . apply (located_toConfigurationValue _ false member).mono
      exact ((Below.refl path).append ".").append name
    . exact located_toConfigurationFields path _ members
termination_by structural members => members

end

section Strategy

variable {α σ : Type}

theorem located_readPresent {read : Json → σ → Diagnosed (Written σ)} (output : σ)
    (h : ∀ input, Located path (read input output))
    : Located path (readPresent members name read output) := by
  unfold readPresent
  split
  . exact Located.pure _
  . apply h

theorem located_readOptional (get : Json → Option α) (members : List (String × Json))
    (name path message : String) (store : α → σ → σ) (output : σ)
    : Located path (readOptional get members name path message store output) := by
  apply located_readPresent
  intro input
  split
  . exact Located.diagnose (((Below.refl path).append ".").append name)
  . exact Located.pure _

theorem located_readFormatter (input : Json) (output : ConfigurationFormatterSpec)
    (hpath : path.isEmpty = false)
    : Located path (readFormatter input path output) := by
  unfold readFormatter
  split
  . next members =>
    have htype := located_readOptional Json.getString members "type" path
      "formatter type must be a string"
      (fun value (output : ConfigurationFormatterSpec) => { output with type := value })
    have hpattern := located_readOptional Json.getString members "pattern" path
      "formatter pattern must be a string"
      (fun value (output : ConfigurationFormatterSpec) =>
        { output with hasPattern := true, pattern := value })
    have hjson := located_readOptional Json.getBoolean members "json" path
      "formatter json must be boolean"
      (fun value (output : ConfigurationFormatterSpec) =>
        { output with hasJsonFormat := true, jsonFormat := value })
    constructor
    . apply Under.bind (under_rejectUnknownFields members _ hpath)
      apply Under.bind (htype _).under
      apply Under.bind (hpattern _).under
      apply Under.bind (hjson _).under
      apply Under.pure
    . intro h
      simp only [messages_bind, append_eq_nil_iff] at h
      simp only [value_bind, value_pure]
      rw [(htype _).explained h.2.1, (hpattern _).explained h.2.2.1,
        (hjson _).explained h.2.2.2.1]
      rfl
  . exact Located.diagnose (Below.refl path)

theorem located_readLevel (input : Json) (path : String) (output : ConfigurationStrategySpec)
    : Located path (readLevel input path output) := by
  unfold readLevel
  split
  . split
    . exact Located.pure _
    . exact Located.diagnose (Below.refl path)
  . exact Located.diagnose (Below.refl path)

theorem isEmpty_append {path : String} (h : path.isEmpty = false)
    : (path ++ rest).isEmpty = false := by
  simp_all

section

variable (input : Json) {path : String} (output : ConfigurationStrategySpec)
  (hpath : path.isEmpty = false)

include hpath

theorem located_readStrategyFormatter : Located path (readStrategyFormatter input path output) := by
  apply located_map
  exact located_readFormatter input _ hpath

theorem located_readStrategy : Located path (readStrategy input path output) := by
  unfold readStrategy
  split
  . next members =>
    apply Located.after (under_rejectUnknownFields members _ hpath)
    apply Located.bind
    . apply located_readPresent
      intro input
      exact (located_readLevel _ _ _).mono ((Below.refl path).append ".level")
    . apply located_readPresent
      intro input
      apply (located_readStrategyFormatter _ _ (isEmpty_append hpath)).mono
      exact (Below.refl path).append ".formatter"
  . exact Located.diagnose (Below.refl path)

end

end Strategy

theorem located_readRequiredString (members : List (String × Json)) (name path message : String)
    : Located path (readRequiredString members name path message) := by
  unfold readRequiredString
  split
  . exact Located.pure _
  . exact Located.diagnose (((Below.refl path).append ".").append name)

theorem located_readBackendFields (type path : String) (fields : ConfigurationFieldMap)
    (members : List (String × Json))
    : Located path (readBackendFields type path fields members) := by
  induction members generalizing fields with
  | nil => exact Located.pure _
  | cons field members ih =>
    apply Located.bind
    . apply (located_toConfigurationValue _ _ field.2).mono
      exact ((Below.refl path).append ".backend.").append field.1
    . apply ih

theorem located_readBackend (members : List (String × Json)) (type path : String)
    : Located path (readBackend members type path) := by
  unfold readBackend
  split
  . exact Located.pure _
  . apply located_readBackendFields
  . exact Located.diagnose ((Below.refl path).append ".backend")

theorem isEmpty_loggerPath (index : Nat) : (loggerPath index).isEmpty = false := by
  apply isEmpty_append
  apply isEmpty_append
  rfl

theorem located_readLogger (input : Json) (index : Nat)
    : Located (loggerPath index) (readLogger input index) := by
  unfold readLogger
  split
  . next members =>
    have hid := located_readRequiredString members "id" (loggerPath index)
      "logger id is required and must be a string"
    have htype := located_readRequiredString members "type" (loggerPath index)
      "logger type is required and must be a string"
    have hstrategy : Located (loggerPath index) (readPresent members "strategy"
        (fun input => readStrategy input (loggerPath index ++ ".strategy")) {}) := by
      apply located_readPresent
      intro input
      apply (located_readStrategy _ _ (isEmpty_append (isEmpty_loggerPath index))).mono
      exact (Below.refl _).append ".strategy"
    have hbackend := fun type => located_readBackend members type (loggerPath index)
    constructor
    . apply Under.bind (under_rejectUnknownFields members _ (isEmpty_loggerPath index))
      apply Under.bind hid.under
      apply Under.bind htype.under
      apply Under.bind hstrategy.under
      apply Under.bind (hbackend _).under
      apply Under.pure
    . intro h
      simp only [messages_bind, append_eq_nil_iff] at h
      simp only [value_bind, value_pure]
      rw [hid.explained h.2.1, htype.explained h.2.2.1, hstrategy.explained h.2.2.2.1,
        (hbackend _).explained h.2.2.2.2.1]
      rfl
  . exact Located.diagnose (Below.refl _)

end ConfigurationJson
end LogIt
