import LogIt.Configuration.Impl.Model

/-!
This module contains the bindings of loggers and the instantiation of materialized plans.
-/

namespace LogIt

inductive BindingType where
  -- `std::function<void(std::string)>`
  | payloadCallback
  -- `std::function<void(const std::string&)>`
  | errorCallback
  | other (name : String)
  deriving DecidableEq

structure Binding where
  value : Option Nat
  type : BindingType
  deriving DecidableEq

abbrev ConfigurationBindingSet : Type := List (String × Binding)

namespace ConfigurationBindingSet

variable (bindings : ConfigurationBindingSet)

def contains (name : String) : Bool :=
  match bindings.lookup name with
  | some binding => binding.value.isSome
  | none => false

def containsName (name : String) : Bool :=
  (bindings.lookup name).isSome

def get (type : BindingType) (name : String) : Option Nat :=
  match bindings.lookup name with
  | some binding => if binding.type = type then binding.value else none
  | none => none

end ConfigurationBindingSet

structure ConfigurationBindingResolver (θ : Type) where
  resolve : Nat → ConfigurationMaterializedLogger
    → Except θ (Diagnosed (Written ConfigurationBindingSet))

structure ConfigurationLoggerFactory (θ L : Type) where
  instantiate : Nat → ConfigurationMaterializedLogger → ConfigurationBindingSet
    → Except θ (Diagnosed (Option L))

section Instantiation

variable {θ L : Type} (resolver : ConfigurationBindingResolver θ)
  (factory : ConfigurationLoggerFactory θ L)

def missingBindings (required : List String) (bindings : ConfigurationBindingSet)
    : ConfigurationDiagnostics :=
  (required.filter (fun name => !bindings.contains name)).map fun name => {
    code := .missingProgrammaticBinding
    path := "binding." ++ name
    message := "Required programmatic binding was not resolved" }

structure ResolvedEntry where
  valid : Bool
  bindings : ConfigurationBindingSet
  raised : List Raised

def resolveEntry (index : Nat) (entry : ConfigurationMaterializedLogger) : Except θ ResolvedEntry :=
  match resolver.resolve index entry with
  | .error e => .error e
  | .ok resolved =>
    let bindings := resolved.value.output
    let missing := missingBindings entry.requiredBindings bindings
    let own := resolved.messages ++ missing
    if !resolved.value.valid || !own.isEmpty || !missing.isEmpty then
      .ok {
        valid := false
        bindings
        raised := rejectEntry index own .bindingResolutionFailed
          (loggerPath index ++ ".binding") "Programmatic bindings could not be resolved" }
    else
      .ok { valid := true, bindings, raised := [] }

def instantiateEntry (index : Nat)
    (entry : ConfigurationMaterializedLogger × ConfigurationBindingSet) : Except (Abort θ) L :=
  match factory.instantiate index entry.1 entry.2 with
  | .error e => .error (.thrown e)
  | .ok own =>
    match own.value with
    | some logger =>
      if own.messages.isEmpty then
        .ok logger
      else
        .error (.rejected (reject own.messages))
    | none => .error (.rejected (reject own.messages))
where
  reject (messages : ConfigurationDiagnostics) : List Raised :=
    rejectEntry index messages .instantiationFailed (loggerPath index)
      "Logger factory could not instantiate the plan entry"

structure InstantiateResult (θ L : Type) extends PhaseResult θ (List L) where
  factoryCalls : List (ConfigurationMaterializedLogger × ConfigurationBindingSet)

def instantiateConfiguration (plan : ConfigurationPlan) (loggers : List L)
    : InstantiateResult θ L :=
  let resolved := rounds (resolveEntry resolver) 0 plan.loggers
  let raised := resolved.results.flatMap ResolvedEntry.raised
  match resolved.thrown with
  | some e => { result := .error e, output := loggers, raised, factoryCalls := [] }
  | none =>
    if resolved.results.all ResolvedEntry.valid then
      let entries := plan.loggers.zip (resolved.results.map ResolvedEntry.bindings)
      let factoryCalls := visited (instantiateEntry factory) 0 entries
      let candidate := rounds (instantiateEntry factory) 0 entries
      match candidate.thrown with
      | some abort => { abort.phaseResult loggers with factoryCalls }
      | none => { result := .ok true, output := candidate.results, raised := [], factoryCalls }
    else
      { result := .ok false, output := loggers, raised, factoryCalls := [] }

end Instantiation
end LogIt
