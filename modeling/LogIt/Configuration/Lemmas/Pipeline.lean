import LogIt.Configuration.Impl.Runtime
import LogIt.Configuration.Lemmas.Json

namespace LogIt

open ConfigurationJson List

def PathsLocated (raised : List Raised) : Prop :=
  ∀ r ∈ raised, ∀ index, r.entry = some index → Below (loggerPath index) r.diagnostic.path

structure PhaseResult.AllOrNothing {θ ω : Type} (phase : PhaseResult θ ω) (before : ω) : Prop where
  returned : ∀ returned, phase.result = .ok returned → (returned = true ↔ phase.diagnostics = [])
  unchanged : phase.result ≠ .ok true → phase.output = before

structure PhaseResult.Sound {θ ω : Type} (phase : PhaseResult θ ω) (before : ω) (Done : ω → Prop)
    : Prop extends phase.AllOrNothing before where
  located : PathsLocated phase.raised
  done : phase.result = .ok true → Done phase.output

section Raised

variable {index : Nat} {diagnostics : ConfigurationDiagnostics} {raised raised' : List Raised}

@[simp]
theorem Raised.byDocument_eq_nil_iff : Raised.byDocument diagnostics = [] ↔ diagnostics = [] :=
  map_eq_nil_iff

@[simp]
theorem Raised.byEntry_eq_nil_iff : Raised.byEntry index diagnostics = [] ↔ diagnostics = [] :=
  map_eq_nil_iff

theorem PathsLocated.nil : PathsLocated [] :=
  forall_mem_nil _

theorem PathsLocated.append (h : PathsLocated raised) (h' : PathsLocated raised')
    : PathsLocated (raised ++ raised') :=
  forall_mem_append.mpr ⟨h, h'⟩

theorem pathsLocated_byDocument : PathsLocated (Raised.byDocument diagnostics) := by
  intro r hr index hindex
  obtain ⟨diagnostic, _, rfl⟩ := mem_map.mp hr
  cases hindex

theorem pathsLocated_byEntry
    (h : ∀ diagnostic ∈ diagnostics, Below (loggerPath index) diagnostic.path)
    : PathsLocated (Raised.byEntry index diagnostics) := by
  intro r hr index' hindex
  obtain ⟨diagnostic, hdiagnostic, rfl⟩ := mem_map.mp hr
  cases hindex
  exact h diagnostic hdiagnostic

theorem below_rebasedPath (path front : String)
    : Below front (ConfigurationDiagnostics.rebasedPath path front) := by
  unfold ConfigurationDiagnostics.rebasedPath
  split
  . exact Below.refl front
  . exact ((Below.refl front).append ".").append path

variable {code : ConfigurationErrorCode} {path message : String}

theorem rejectEntry_ne_nil : rejectEntry index diagnostics code path message ≠ [] := by
  unfold rejectEntry
  rw [Ne, Raised.byEntry_eq_nil_iff]
  split
  . simp
  . next h =>
    rw [ConfigurationDiagnostics.appendRebased, map_eq_nil_iff]
    simpa using h

theorem pathsLocated_rejectEntry (h : Below (loggerPath index) path)
    : PathsLocated (rejectEntry index diagnostics code path message) := by
  apply pathsLocated_byEntry
  split
  . intro diagnostic hmem
    rw [mem_singleton] at hmem
    rw [hmem]
    exact h
  . intro diagnostic hmem
    obtain ⟨source, _, rfl⟩ := mem_map.mp hmem
    apply below_rebasedPath

end Raised

section Abort

variable {θ ω : Type}

def Abort.Explained (abort : Abort θ) : Prop :=
  ∀ raised, abort = .rejected raised → raised ≠ [] ∧ PathsLocated raised

theorem Abort.explained_thrown (e : θ) : (Abort.thrown e).Explained := by
  intro raised h
  cases h

theorem Abort.explained_rejectEntry (h : Below (loggerPath index) path)
    : (.rejected (rejectEntry index own code path message) : Abort θ).Explained := by
  intro raised hraised
  cases hraised
  exact ⟨rejectEntry_ne_nil, pathsLocated_rejectEntry h⟩

namespace PhaseResult.Sound

variable {before : ω} {phase : PhaseResult θ ω} {Done : ω → Prop}

theorem accepted (hresult : phase.result = .ok true) (hraised : phase.raised = [])
    (hdone : Done phase.output)
    : phase.Sound before Done := by
  refine ⟨⟨?_, fun hne => absurd hresult hne⟩, ?_, fun _ => hdone⟩
  . intro returned hreturned
    rw [hresult, Except.ok.injEq] at hreturned
    simp [← hreturned, diagnostics, hraised]
  . rw [hraised]
    exact PathsLocated.nil

theorem failed (hresult : phase.result = .ok false) (houtput : phase.output = before)
    (hraised : phase.raised ≠ []) (hlocated : PathsLocated phase.raised)
    : phase.Sound before Done := by
  refine ⟨⟨?_, fun _ => houtput⟩, hlocated, ?_⟩
  . intro returned hreturned
    rw [hresult, Except.ok.injEq] at hreturned
    simp [← hreturned, diagnostics, hraised]
  . simp [hresult]

theorem threw (hresult : phase.result = .error e) (houtput : phase.output = before)
    (hlocated : PathsLocated phase.raised)
    : phase.Sound before Done := by
  refine ⟨⟨?_, fun _ => houtput⟩, hlocated, ?_⟩
  . simp [hresult]
  . simp [hresult]

theorem abort {abort : Abort θ} (h : abort.Explained)
    : (abort.phaseResult before).Sound before Done := by
  cases abort with
  | thrown e => exact threw rfl rfl PathsLocated.nil
  | rejected raised => exact failed rfl rfl (h raised rfl).1 (h raised rfl).2

end PhaseResult.Sound
end Abort

section Parse

variable {θ : Type}

theorem length_readLoggers (items : List Json) : (readLoggers items).length = items.length :=
  length_mapIdx

theorem getElem?_readLoggers (items : List Json) (index : Nat)
    : (readLoggers items)[index]? = items[index]?.map (fun item => readLogger item index) :=
  getElem?_mapIdx

theorem raisedByLoggers_readLoggers (items : List Json)
    : raisedByLoggers (readLoggers items)
        = (items.mapIdx fun index item => Raised.byEntry index
          (readLogger item index).messages).flatten := by
  rw [raisedByLoggers, readLoggers, mapIdx_mapIdx]
  rfl

theorem pathsLocated_raisedByLoggers (items : List Json)
    : PathsLocated (raisedByLoggers (readLoggers items)) := by
  intro r hr
  rw [raisedByLoggers_readLoggers] at hr
  obtain ⟨raised, hraised, hr⟩ := mem_flatten.mp hr
  obtain ⟨index, hindex, rfl⟩ := mem_mapIdx.mp hraised
  exact pathsLocated_byEntry (located_readLogger _ index).under r hr

theorem all_valid_of_raisedByLoggers (h : raisedByLoggers (readLoggers items) = [])
    : (readLoggers items).all (fun result => result.value.valid) = true := by
  rw [all_eq_true]
  intro result hresult
  obtain ⟨index, hindex, rfl⟩ := mem_mapIdx.mp hresult
  rw [raisedByLoggers_readLoggers, flatten_eq_nil_iff] at h
  have hnil := h _ (mem_mapIdx.mpr ⟨index, hindex, rfl⟩)
  exact (located_readLogger _ index).explained (Raised.byEntry_eq_nil_iff.mp hnil)

theorem located_readSchemaVersion (members : List (String × Json))
    : Located "schema_version" (readSchemaVersion members) := by
  unfold readSchemaVersion
  split
  . exact Located.pure _
  . exact Located.diagnose (Below.refl _)

def Parsed (input : Json) (output : ConfigurationDocument) : Prop :=
  ∃ items, input.find "loggers" = some (.array items)
    ∧ output.loggers = (readLoggers items).map (fun result => result.value.output)

theorem parse_sound (input : Json) (output : ConfigurationDocument)
    : (parseConfigurationJson input output : PhaseResult θ _).Sound output (Parsed input) := by
  unfold parseConfigurationJson
  split
  . next members =>
    dsimp only
    split
    . next items hitems =>
      split
      . next h =>
        simp only [Bool.and_eq_true, List.isEmpty_iff] at h
        exact .accepted rfl h.2 ⟨items, hitems, rfl⟩
      . next h =>
        apply PhaseResult.Sound.failed rfl rfl
        . intro hnil
          dsimp only at hnil
          apply h
          have hparts := hnil
          simp only [List.append_eq_nil_iff, Raised.byDocument_eq_nil_iff] at hparts
          rw [hnil, (located_readSchemaVersion members).explained hparts.1.2,
            all_valid_of_raisedByLoggers hparts.2]
          rfl
        . exact pathsLocated_byDocument.append (pathsLocated_raisedByLoggers _)
    . exact .failed rfl rfl (by simp) (pathsLocated_byDocument.append pathsLocated_byDocument)
  . exact .failed rfl rfl (by simp) pathsLocated_byDocument

theorem parseText_allOrNothing (parse : String → Except (JsonThrown θ) Json) (text : String)
    (output : ConfigurationDocument) (raised : List Raised)
    : (parseConfigurationText parse text output raised).AllOrNothing output := by
  unfold parseConfigurationText
  split
  . exact (parse_sound _ output).toAllOrNothing
  . refine ⟨?_, fun _ => rfl⟩
    simp [PhaseResult.diagnostics]
  . refine ⟨?_, fun _ => rfl⟩
    simp

end Parse

section Validate

variable {logger : ConfigurationLoggerSpec} {index : Nat} {path : String}

theorem under_validateId (seen : List String) : Under path (validateId logger path seen) := by
  unfold validateId
  apply Under.ite (Under.diagnose ((Below.refl path).append _))
  exact Under.ite (Under.diagnose ((Below.refl path).append _)) (Under.pure _)

theorem under_validateBackendType : Under path (validateBackendType logger path) := by
  unfold validateBackendType
  apply Under.ite (Under.diagnose ((Below.refl path).append _))
  exact Under.ite (Under.diagnose ((Below.refl path).append _)) (Under.pure _)

theorem under_validateStrategy : Under path (validateStrategy logger path) := by
  apply Under.bind
  . exact Under.diagnoseIf ((Below.refl path).append _)
  . exact Under.diagnoseIf ((Below.refl path).append _)

theorem under_validateExecutorFields : Under path (validateExecutorFields logger path) := by
  apply Under.bind
  . exact Under.diagnoseIf ((Below.refl path).append _)
  . apply Under.bind
    . exact Under.diagnoseIf ((Below.refl path).append _)
    . exact Under.diagnoseIf ((Below.refl path).append _)

theorem under_validateQueueFields : Under path (validateQueueFields logger path) := by
  apply Under.bind
  . exact Under.diagnoseIf ((Below.refl path).append _)
  . exact Under.diagnoseIf ((Below.refl path).append _)

theorem under_validateLogger (seen : List String)
    : Under (loggerPath index) (validateLogger logger index seen) := by
  apply Under.bind (under_validateId seen)
  apply Under.bind under_validateBackendType
  apply Under.bind under_validateStrategy
  exact Under.bind under_validateExecutorFields under_validateQueueFields

theorem pathsLocated_validateLoggers (seen : List String) (loggers : List ConfigurationLoggerSpec)
    : PathsLocated (validateLoggers index seen loggers) := by
  induction loggers generalizing index seen with
  | nil => exact PathsLocated.nil
  | cons logger loggers ih => exact (pathsLocated_byEntry (under_validateLogger seen)).append (ih _)

theorem pathsLocated_validateConfiguration (document : ConfigurationDocument)
    : PathsLocated (validateConfiguration document) :=
  pathsLocated_byDocument.append (pathsLocated_validateLoggers _ _)

end Validate

section Materialize

variable {θ : Type} {materializer : ConfigurationMaterializer θ} {index : Nat}
  {logger : ConfigurationLoggerSpec} {abort : Abort θ}

theorem explained_of_validateEntry (h : validateEntry materializer index logger = .error abort)
    : abort.Explained := by
  unfold validateEntry at h
  split at h
  . cases h
    apply Abort.explained_thrown
  . split at h
    . cases h
    . cases h
      exact Abort.explained_rejectEntry ((Below.refl _).append _)

theorem explained_of_materializeEntry
    (h : materializeEntry materializer index logger = .error abort)
    : abort.Explained := by
  unfold materializeEntry at h
  split at h
  . cases h
    apply Abort.explained_thrown
  . split at h
    . cases h
    . cases h
      exact Abort.explained_rejectEntry (Below.refl _)

theorem materializeEntry_eq_ok (h : materializeEntry materializer index logger = .ok output)
    : ∃ own, materializer.materializeBackend index logger = .ok own ∧ own.value.valid = true
        ∧ own.messages = [] ∧ own.value.output = output := by
  unfold materializeEntry at h
  split at h
  . cases h
  . next own hown =>
    split at h
    . next hvalid =>
      rw [Bool.and_eq_true, List.isEmpty_iff] at hvalid
      exact ⟨own, hown, hvalid.1, hvalid.2, Except.ok.inj h⟩
    . cases h

theorem explained_of_rounds {α β : Type} {f : Nat → α → Except (Abort θ) β} {as : List α}
    (hf : ∀ {index a abort}, f index a = .error abort → abort.Explained)
    (h : (rounds f 0 as).thrown = some abort)
    : abort.Explained := by
  obtain ⟨index, a, _, herror⟩ := exists_of_rounds_thrown h
  exact hf herror

structure Materialized (materializer : ConfigurationMaterializer θ)
    (document : ConfigurationDocument) (plan : ConfigurationPlan) : Prop where
  valid : validateConfiguration document = []
  version : plan.schemaVersion = document.schemaVersion
  length : plan.loggers.length = document.loggers.length
  entries : ∀ index logger, document.loggers[index]? = some logger →
    ∃ own, materializer.materializeBackend index logger = .ok own ∧ own.value.valid = true
      ∧ own.messages = [] ∧ plan.loggers[index]? = some own.value.output

theorem materialize_sound (materializer : ConfigurationMaterializer θ)
    (document : ConfigurationDocument) (plan : ConfigurationPlan)
    : (materializeConfiguration materializer document plan).Sound plan
        (Materialized materializer document) := by
  unfold materializeConfiguration
  dsimp only
  split
  . next h => exact .failed rfl rfl (by simpa using h) (pathsLocated_validateConfiguration document)
  . next hvalid =>
    split
    . next h => exact .abort (explained_of_rounds explained_of_validateEntry h)
    . split
      . next h => exact .abort (explained_of_rounds explained_of_materializeEntry h)
      . next hmaterialized =>
        refine .accepted rfl rfl ⟨by simpa using hvalid, rfl, length_of_rounds hmaterialized, ?_⟩
        intro index logger hlogger
        obtain ⟨output, houtput, hentry⟩ := getElem?_of_rounds hmaterialized hlogger
        rw [Nat.zero_add] at hentry
        obtain ⟨own, hown, hown_valid, hnil, rfl⟩ := materializeEntry_eq_ok hentry
        exact ⟨own, hown, hown_valid, hnil, houtput⟩

end Materialize

section Instantiate

variable {θ L : Type} {resolver : ConfigurationBindingResolver θ}
  {factory : ConfigurationLoggerFactory θ L} {index : Nat}

theorem missingBindings_eq_nil_iff
    : missingBindings required bindings = []
        ↔ ∀ name ∈ required, bindings.contains name = true := by
  unfold missingBindings
  rw [map_eq_nil_iff, filter_eq_nil_iff]
  simp

structure Bound (resolver : ConfigurationBindingResolver θ) (index : Nat)
    (entry : ConfigurationMaterializedLogger) (bindings : ConfigurationBindingSet) : Prop where
  resolved : ∃ own, resolver.resolve index entry = .ok own ∧ own.value.valid = true
    ∧ own.messages = [] ∧ own.value.output = bindings
  required : ∀ name ∈ entry.requiredBindings, bindings.contains name = true

section

variable {entry : ConfigurationMaterializedLogger} {resolved : ResolvedEntry}
  (h : resolveEntry resolver index entry = .ok resolved)

include h

theorem bound_of_resolveEntry (hvalid : resolved.valid = true)
    : Bound resolver index entry resolved.bindings := by
  unfold resolveEntry at h
  split at h
  . cases h
  . next own hown =>
    dsimp only at h
    split at h
    . cases h
      cases hvalid
    . next hok =>
      cases h
      simp only [Bool.or_eq_true, not_or, Bool.not_eq_true', Bool.not_eq_false,
        List.isEmpty_iff, List.append_eq_nil_iff] at hok
      exact ⟨⟨own, hown, hok.1.1, hok.1.2.1, rfl⟩, missingBindings_eq_nil_iff.mp hok.2⟩

theorem raised_of_resolveEntry
    : (resolved.raised = [] ↔ resolved.valid = true) ∧ PathsLocated resolved.raised := by
  unfold resolveEntry at h
  split at h
  . cases h
  . dsimp only at h
    split at h
    . cases h
      constructor
      . simpa using rejectEntry_ne_nil
      . exact pathsLocated_rejectEntry ((Below.refl _).append _)
    . cases h
      exact ⟨by simp, PathsLocated.nil⟩

end

theorem pathsLocated_resolved (plan : ConfigurationPlan)
    : PathsLocated
        ((rounds (resolveEntry resolver) 0 plan.loggers).results.flatMap ResolvedEntry.raised) := by
  intro r hr
  obtain ⟨resolved, hresolved, hr⟩ := mem_flatMap.mp hr
  obtain ⟨index, entry, hentry⟩ := exists_of_mem_rounds hresolved
  exact (raised_of_resolveEntry hentry).2 r hr

theorem all_valid_of_resolved {plan : ConfigurationPlan}
    (h : (rounds (resolveEntry resolver) 0 plan.loggers).results.flatMap ResolvedEntry.raised = [])
    : (rounds (resolveEntry resolver) 0 plan.loggers).results.all ResolvedEntry.valid = true := by
  rw [all_eq_true]
  intro resolved hresolved
  obtain ⟨index, entry, hentry⟩ := exists_of_mem_rounds hresolved
  exact (raised_of_resolveEntry hentry).1.mp (flatMap_eq_nil_iff.mp h resolved hresolved)

section

variable {entry : ConfigurationMaterializedLogger × ConfigurationBindingSet}

theorem explained_of_instantiateEntry (h : instantiateEntry factory index entry = .error abort)
    : abort.Explained := by
  unfold instantiateEntry at h
  split at h
  . cases h
    apply Abort.explained_thrown
  . split at h
    . split at h
      . cases h
      . cases h
        exact Abort.explained_rejectEntry (Below.refl _)
    . cases h
      exact Abort.explained_rejectEntry (Below.refl _)

theorem instantiateEntry_eq_ok (h : instantiateEntry factory index entry = .ok logger)
    : ∃ own, factory.instantiate index entry.1 entry.2 = .ok own ∧ own.value = some logger
        ∧ own.messages = [] := by
  unfold instantiateEntry at h
  split at h
  . cases h
  . next own hown =>
    split at h
    . next hlogger =>
      split at h
      . next hnil =>
        cases h
        exact ⟨own, hown, hlogger, List.isEmpty_iff.mp hnil⟩
      . cases h
    . cases h

end

variable {plan : ConfigurationPlan} {loggers : List L}

theorem exists_bound (hthrown : (rounds (resolveEntry resolver) 0 plan.loggers).thrown = none)
    (hvalid : (rounds (resolveEntry resolver) 0 plan.loggers).results.all ResolvedEntry.valid = true)
    {entry : ConfigurationMaterializedLogger} (hentry : plan.loggers[index]? = some entry)
    : ∃ resolved,
        (rounds (resolveEntry resolver) 0 plan.loggers).results[index]? = some resolved
          ∧ Bound resolver index entry resolved.bindings := by
  obtain ⟨resolved, hresolved, hround⟩ := getElem?_of_rounds hthrown hentry
  rw [Nat.zero_add] at hround
  refine ⟨resolved, hresolved, bound_of_resolveEntry hround ?_⟩
  exact all_eq_true.mp hvalid resolved (mem_of_getElem? hresolved)

theorem bound_of_mem_factoryCalls
    (h : call ∈ (instantiateConfiguration resolver factory plan loggers).factoryCalls)
    : (∀ index entry, plan.loggers[index]? = some entry →
          ∃ bindings, Bound resolver index entry bindings)
        ∧ ∃ index, plan.loggers[index]? = some call.1 ∧ Bound resolver index call.1 call.2 := by
  unfold instantiateConfiguration at h
  dsimp only at h
  split at h
  . cases h
  . next hthrown =>
    split at h
    . next hvalid =>
      have hcall : call ∈ plan.loggers.zip ((rounds (resolveEntry resolver) 0
          plan.loggers).results.map ResolvedEntry.bindings) := by
        split at h
        . exact visited_subset h
        . exact visited_subset h
      constructor
      . intro index entry hentry
        obtain ⟨resolved, _, hbound⟩ := exists_bound hthrown hvalid hentry
        exact ⟨_, hbound⟩
      . obtain ⟨index, hzip⟩ := getElem?_of_mem hcall
        rw [getElem?_zip_eq_some, getElem?_map] at hzip
        obtain ⟨resolved, hresolved, hbound⟩ := exists_bound hthrown hvalid hzip.1
        rw [hresolved, Option.map_some, Option.some.injEq] at hzip
        rw [hzip.2] at hbound
        exact ⟨index, hzip.1, hbound⟩
    . cases h

structure Instantiated (resolver : ConfigurationBindingResolver θ)
    (factory : ConfigurationLoggerFactory θ L) (plan : ConfigurationPlan) (loggers : List L)
    : Prop where
  length : loggers.length = plan.loggers.length
  entries : ∀ index entry, plan.loggers[index]? = some entry →
    ∃ bindings own logger, Bound resolver index entry bindings
      ∧ factory.instantiate index entry bindings = .ok own ∧ own.value = some logger
      ∧ own.messages = [] ∧ loggers[index]? = some logger

theorem instantiate_sound (resolver : ConfigurationBindingResolver θ)
    (factory : ConfigurationLoggerFactory θ L) (plan : ConfigurationPlan) (loggers : List L)
    : (instantiateConfiguration resolver factory plan loggers).Sound loggers
        (Instantiated resolver factory plan) := by
  unfold instantiateConfiguration
  dsimp only
  split
  . exact .threw rfl rfl (pathsLocated_resolved plan)
  . next hthrown =>
    split
    . next hvalid =>
      split
      . next h => exact .abort (explained_of_rounds explained_of_instantiateEntry h)
      . next hcandidate =>
        have hlength := length_of_rounds hcandidate
        rw [length_zip, length_map, length_of_rounds hthrown, Nat.min_self] at hlength
        refine .accepted rfl rfl ⟨hlength, ?_⟩
        intro index entry hentry
        obtain ⟨resolved, hresolved, hbound⟩ := exists_bound hthrown hvalid hentry
        have hzip : (plan.loggers.zip ((rounds (resolveEntry resolver) 0 plan.loggers).results.map
            ResolvedEntry.bindings))[index]? = some (entry, resolved.bindings) := by
          rw [getElem?_zip_eq_some, getElem?_map, hresolved]
          exact ⟨hentry, rfl⟩
        obtain ⟨logger, hlogger, hround⟩ := getElem?_of_rounds hcandidate hzip
        rw [Nat.zero_add] at hround
        obtain ⟨own, hown, hvalue, hnil⟩ := instantiateEntry_eq_ok hround
        exact ⟨_, own, logger, hbound, hown, hvalue, hnil, hlogger⟩
    . next h =>
      apply PhaseResult.Sound.failed rfl rfl
      . intro hnil
        exact h (all_valid_of_resolved hnil)
      . exact pathsLocated_resolved plan

end Instantiate

section Main

variable {θ L : Type} (input : Json) (document : ConfigurationDocument)
  (materializer : ConfigurationMaterializer θ) (plan : ConfigurationPlan)
  (resolver : ConfigurationBindingResolver θ) (factory : ConfigurationLoggerFactory θ L)
  (loggers : List L)

theorem pipeline_all_or_nothing
    : (∀ parse text raised,
        (parseConfigurationText (parse : String → Except (JsonThrown θ) Json) text document
          raised).AllOrNothing document)
      ∧ (let parsed : PhaseResult θ _ := parseConfigurationJson input document
        parsed.AllOrNothing document ∧ PathsLocated parsed.raised
          ∧ (parsed.result = .ok true →
            ∃ items, input.find "loggers" = some (.array items)
              ∧ parsed.output.loggers.length = items.length
              ∧ ∀ index item, items[index]? = some item →
                parsed.output.loggers[index]? = some (readLogger item index).value.output))
      ∧ (let materialized := materializeConfiguration materializer document plan
        materialized.AllOrNothing plan ∧ PathsLocated materialized.raised
          ∧ (materialized.result = .ok true →
            materialized.output.loggers.length = document.loggers.length
              ∧ ∀ index logger, document.loggers[index]? = some logger →
                ∃ own, materializer.materializeBackend index logger = .ok own
                  ∧ materialized.output.loggers[index]? = some own.value.output))
      ∧ (let instantiated := instantiateConfiguration resolver factory plan loggers
        instantiated.AllOrNothing loggers ∧ PathsLocated instantiated.raised
          ∧ (instantiated.result = .ok true →
            instantiated.output.length = plan.loggers.length
              ∧ ∀ index entry, plan.loggers[index]? = some entry →
                ∃ bindings own, Bound resolver index entry bindings
                  ∧ factory.instantiate index entry bindings = .ok own
                  ∧ instantiated.output[index]? = own.value)
          ∧ (instantiated.factoryCalls ≠ [] →
            ∀ index entry, plan.loggers[index]? = some entry →
              ∃ bindings, Bound resolver index entry bindings)
          ∧ ∀ call ∈ instantiated.factoryCalls,
            ∃ index, plan.loggers[index]? = some call.1 ∧ Bound resolver index call.1 call.2) := by
  refine ⟨?_, ?_, ?_, ?_⟩
  . intro parse text raised
    apply parseText_allOrNothing
  . have hparsed := @parse_sound θ input document
    refine ⟨hparsed.toAllOrNothing, hparsed.located, ?_⟩
    intro h
    obtain ⟨items, hitems, hentries⟩ := hparsed.done h
    rw [hentries]
    refine ⟨items, hitems, ?_, ?_⟩
    . rw [length_map, length_readLoggers]
    . intro index item hitem
      rw [getElem?_map, getElem?_readLoggers, hitem]
      rfl
  . have hmaterialized := materialize_sound materializer document plan
    refine ⟨hmaterialized.toAllOrNothing, hmaterialized.located, ?_⟩
    intro h
    have hplan := hmaterialized.done h
    refine ⟨hplan.length, ?_⟩
    intro index logger hlogger
    obtain ⟨own, hown, _, _, houtput⟩ := hplan.entries index logger hlogger
    exact ⟨own, hown, houtput⟩
  . have hinstantiated := instantiate_sound resolver factory plan loggers
    refine ⟨hinstantiated.toAllOrNothing, hinstantiated.located, ?_, ?_, ?_⟩
    . intro h
      have hloggers := hinstantiated.done h
      refine ⟨hloggers.length, ?_⟩
      intro index entry hentry
      obtain ⟨bindings, own, logger, hbound, hown, hvalue, _, hlogger⟩ :=
        hloggers.entries index entry hentry
      refine ⟨bindings, own, hbound, hown, ?_⟩
      rw [hlogger, hvalue]
    . intro h
      obtain ⟨call, hcall⟩ := exists_mem_of_ne_nil _ h
      exact (bound_of_mem_factoryCalls hcall).1
    . intro call hcall
      exact (bound_of_mem_factoryCalls hcall).2

end Main
end LogIt
