import Mathlib.Data.List.Nodup
import LogIt.Lib.Grouping
import LogIt.Prometheus.Impl.Registry

namespace LogIt.Prometheus

open List

open Formatter (Text)

variable {ω ε : Type}

theorem labelsEqual_iff : labelsEqual lhs rhs ↔ lhs = rhs := by
  induction lhs generalizing rhs with
  | nil => cases rhs <;> simp [labelsEqual]
  | cons l lhs ih =>
    cases rhs with
    | nil => simp [labelsEqual]
    | cons r rhs =>
      have hlabel : l = r ↔ l.name = r.name ∧ l.value = r.value := by
        cases l
        cases r
        simp
      simp only [labelsEqual, decide_eq_true_eq] at ih
      simp only [labelsEqual, length_cons, zip_cons_cons, all_cons,
        Bool.and_eq_true, decide_eq_true_eq, cons.injEq, hlabel, ← ih]
      grind

def SameSeries (a b : Entry ω ε) : Prop :=
  a.name = b.name ∧ a.labels = b.labels

def Distinct (entries : List (Entry ω ε)) : Prop :=
  entries.Pairwise (fun a b => ¬SameSeries a b)

theorem setEntry_cons (metric entry : Entry ω ε) (entries : List (Entry ω ε))
    : setEntry metric (entry :: entries) = metric :: entries ∧ SameSeries entry metric
      ∨ setEntry metric (entry :: entries) = entry :: setEntry metric entries
        ∧ ¬SameSeries entry metric := by
  simp only [setEntry, labelsEqual_iff, SameSeries]
  split
  . next h => exact .inl ⟨rfl, h⟩
  . next h => exact .inr ⟨rfl, h⟩

section

variable {metric : Entry ω ε} {entries : List (Entry ω ε)} (hdistinct : Distinct entries)

include hdistinct

theorem mem_setEntry (e : Entry ω ε)
    : e ∈ setEntry metric entries ↔ e = metric ∨ e ∈ entries ∧ ¬SameSeries e metric := by
  induction entries with
  | nil => simp [setEntry]
  | cons entry entries ih =>
    obtain ⟨hentry, hdistinct⟩ := pairwise_cons.mp hdistinct
    obtain ⟨heq, hsame⟩ | ⟨heq, hsame⟩ := setEntry_cons metric entry entries
    . have htail : ∀ a ∈ entries, ¬SameSeries a metric := by
        intro a ha h
        apply hentry a ha
        exact ⟨hsame.1.trans h.1.symm, hsame.2.trans h.2.symm⟩
      rw [heq]
      grind
    . rw [heq, mem_cons, ih hdistinct]
      grind

theorem distinct_setEntry : Distinct (setEntry metric entries) := by
  induction entries with
  | nil => exact pairwise_singleton _ _
  | cons entry entries ih =>
    obtain ⟨hentry, htail⟩ := pairwise_cons.mp hdistinct
    obtain ⟨heq, hsame⟩ | ⟨heq, hsame⟩ := setEntry_cons metric entry entries
    . rw [heq]
      refine pairwise_cons.mpr ⟨fun a ha h => hentry a ha ?_, htail⟩
      exact ⟨hsame.1.trans h.1, hsame.2.trans h.2⟩
    . rw [heq]
      refine pairwise_cons.mpr ⟨fun a ha => ?_, ih htail⟩
      obtain rfl | ha := (mem_setEntry htail a).mp ha
      . exact hsame
      . exact hentry a ha.1

end

def Current (calls : List (Call ω ε)) (entry : Entry ω ε) : Prop :=
  ∃ before call after, calls = before ++ call :: after ∧ call.metric = entry
    ∧ ∀ later ∈ after, ¬SameSeries entry later.metric

theorem current_append_singleton
    : Current (calls ++ [call]) entry
      ↔ entry = call.metric ∨ Current calls entry ∧ ¬SameSeries entry call.metric := by
  constructor
  . rintro ⟨before, c, after, heq, rfl, hafter⟩
    induction after using reverseRecOn with
    | nil =>
      obtain ⟨-, heq⟩ := append_inj' heq rfl
      simp_all
    | append_singleton after last _ =>
      rw [← cons_append, ← append_assoc] at heq
      obtain ⟨rfl, hlast⟩ := append_inj' heq rfl
      obtain rfl := head_eq_of_cons_eq hlast
      refine .inr ⟨⟨before, c, after, rfl, rfl, ?_⟩, hafter _ (by simp)⟩
      intro later hlater
      apply hafter
      simp [hlater]
  . rintro (rfl | ⟨⟨before, c, after, rfl, rfl, hafter⟩, hsame⟩)
    . exact ⟨calls, call, [], rfl, rfl, by simp⟩
    . refine ⟨before, c, after ++ [call], by simp, rfl, ?_⟩
      intro later hlater
      obtain hlater | hlater := mem_append.mp hlater
      . exact hafter later hlater
      . rwa [mem_singleton.mp hlater]

section

variable (metricPrefix : Text) (calls : List (Call ω ε))

theorem registered_append_singleton (call : Call ω ε)
    : (registered metricPrefix (calls ++ [call])).entries
      = setEntry call.metric (registered metricPrefix calls).entries := by
  simp [registered, PrometheusRegistry.apply, setMetric]

theorem metricPrefix_registered : (registered metricPrefix calls).metricPrefix = metricPrefix := by
  induction calls using reverseRecOn with
  | nil => rfl
  | append_singleton calls call ih =>
    simpa [registered, PrometheusRegistry.apply, setMetric] using ih

theorem distinct_registered : Distinct (registered metricPrefix calls).entries := by
  induction calls using reverseRecOn with
  | nil => exact List.Pairwise.nil
  | append_singleton calls call ih =>
    rw [registered_append_singleton]
    exact distinct_setEntry ih

theorem mem_registered (entry : Entry ω ε)
    : entry ∈ (registered metricPrefix calls).entries ↔ Current calls entry := by
  induction calls using reverseRecOn with
  | nil => simp [registered, Current]
  | append_singleton calls call ih =>
    rw [registered_append_singleton, mem_setEntry (distinct_registered metricPrefix calls), ih,
      current_append_singleton]

end

section Collect

variable (metricPrefix : Text) (world : ω)

def Entry.healthy (entry : Entry ω ε) : Option (Entry ω ε × Double) :=
  (entry.valueFn world).toOption.map (fun value => (entry, value))

def Entry.thrown (entry : Entry ω ε) : Option ε :=
  match entry.valueFn world with
  | .error exception => some exception
  | .ok _ => none

def familyKey (item : Entry ω ε × Double) : Text × PrometheusMetricType :=
  (metricPrefix ++ item.1.name, item.1.type)

def sampleOf (item : Entry ω ε × Double) : PrometheusSample :=
  { name := metricPrefix ++ item.1.name, value := item.2, labels := item.1.labels }

def familyOf (group : (Text × PrometheusMetricType) × List (Entry ω ε × Double))
    : PrometheusMetricFamily where
  name := group.1.1
  help := (group.2.head?.map (fun item => item.1.help)).getD []
  type := group.1.2
  samples := group.2.map (sampleOf metricPrefix)

def groupedFamilies (items : List (Entry ω ε × Double)) : List PrometheusMetricFamily :=
  (Grouping.groups (familyKey metricPrefix) items).map (familyOf metricPrefix)

theorem familyOf_append {group : (Text × PrometheusMetricType) × List (Entry ω ε × Double)}
    (h : group.2 ≠ [])
    : familyOf metricPrefix (group.1, group.2 ++ [item])
      = { familyOf metricPrefix group with
          samples := (familyOf metricPrefix group).samples ++ [sampleOf metricPrefix item] } := by
  obtain ⟨head, tail, heq⟩ := exists_cons_of_ne_nil h
  simp [familyOf, heq]

theorem addSample_groupedFamilies (items : List (Entry ω ε × Double)) (item : Entry ω ε × Double)
    : addSample (groupedFamilies metricPrefix items) (metricPrefix ++ item.1.name) item.1 item.2
      = groupedFamilies metricPrefix (items ++ [item]) := by
  have hkey : ∀ group : (Text × PrometheusMetricType) × List (Entry ω ε × Double),
      (familyOf metricPrefix group).name = metricPrefix ++ item.1.name
        ∧ (familyOf metricPrefix group).type = item.1.type
      ↔ group.1 = familyKey metricPrefix item := by
    intro group
    simp [familyOf, familyKey, Prod.ext_iff]
  have hnodup := Grouping.nodup_map_fst_groups (familyKey metricPrefix) items
  unfold addSample groupedFamilies
  rw [Grouping.groups_append_singleton, Grouping.add]
  cases hfind : findFamily ((Grouping.groups (familyKey metricPrefix) items).map
      (familyOf metricPrefix)) (metricPrefix ++ item.1.name) item.1.type with
  | none =>
    rw [findFamily, findIdx?_eq_none_iff] at hfind
    rw [if_neg]
    . simp [familyOf, familyKey, sampleOf]
    . intro hmem
      obtain ⟨group, hgroup, heq⟩ := mem_map.mp hmem
      have := hfind _ (mem_map_of_mem hgroup)
      rw [decide_eq_false_iff_not, hkey] at this
      exact this heq
  | some index =>
    have hone : ((Grouping.groups (familyKey metricPrefix) items).map
        (familyOf metricPrefix)).Pairwise (fun a b =>
          decide (a.name = metricPrefix ++ item.1.name ∧ a.type = item.1.type)
          → ¬decide (b.name = metricPrefix ++ item.1.name ∧ b.type = item.1.type)) := by
      rw [pairwise_map]
      refine List.Pairwise.imp ?_ (pairwise_map.mp hnodup)
      intro a b hne ha hb
      rw [decide_eq_true_eq, hkey] at ha hb
      exact hne (ha.trans hb.symm)
    rw [if_pos]
    . dsimp only
      rw [Grouping.modify_of_findIdx? hone hfind, map_map, map_map]
      refine map_congr_left (fun group hgroup => ?_)
      simp only [Function.comp_apply, decide_eq_true_eq, hkey]
      by_cases heq : group.1 = familyKey metricPrefix item
      . rw [if_pos heq, if_pos heq, familyOf_append metricPrefix
          (Grouping.ne_nil_of_mem_groups _ hgroup)]
        rfl
      . rw [if_neg heq, if_neg heq]
    . obtain ⟨hlt, hp, -⟩ := findIdx?_eq_some_iff_getElem.mp hfind
      rw [getElem_map, decide_eq_true_eq, hkey] at hp
      exact hp ▸ mem_map_of_mem (getElem_mem _)

theorem foldl_addSample (items : List (Entry ω ε × Double))
    : items.foldl (fun families item =>
        addSample families (metricPrefix ++ item.1.name) item.1 item.2) []
      = groupedFamilies metricPrefix items := by
  induction items using reverseRecOn with
  | nil => rfl
  | append_singleton items item ih =>
    rw [foldl_append, ih]
    exact addSample_groupedFamilies metricPrefix items item

theorem foldl_collectEntry (entries : List (Entry ω ε)) (s : Collecting ε)
    : entries.foldl (collectEntry metricPrefix world) s
      = ⟨(entries.filterMap (Entry.healthy world)).foldl (fun families item =>
            addSample families (metricPrefix ++ item.1.name) item.1 item.2) s.collected,
          s.firstException.or (entries.findSome? (Entry.thrown world))⟩ := by
  induction entries generalizing s with
  | nil => simp
  | cons entry entries ih =>
    rw [foldl_cons, ih]
    cases h : entry.valueFn world with
    | error | ok => simp [collectEntry, Entry.healthy, Entry.thrown, h, Except.toOption]

theorem collect_healthy (registry : PrometheusRegistry ω ε) (world : ω)
    (out : List PrometheusMetricFamily)
    : collect registry world out
      = (out ++ groupedFamilies registry.metricPrefix
            (registry.entries.filterMap (Entry.healthy world)),
          registry.entries.findSome? (Entry.thrown world)) := by
  simp [collect, foldl_collectEntry, foldl_addSample]

end Collect

def SameLabels (a b : List PrometheusLabel) : Prop :=
  ∀ label, label ∈ a ↔ label ∈ b

def SeriesOnce (families : List PrometheusMetricFamily) : Prop :=
  (families.map PrometheusMetricFamily.name).Nodup
    ∧ (families.flatMap PrometheusMetricFamily.samples).Pairwise
        (fun a b => ¬(a.name = b.name ∧ SameLabels a.labels b.labels))

section

variable (metricPrefix : Text) (items : List (Entry ω ε × Double))

theorem nodup_names_groupedFamilies
    : ((groupedFamilies metricPrefix items).map PrometheusMetricFamily.name).Nodup
      ↔ ∀ a ∈ items.map Prod.fst, ∀ b ∈ items.map Prod.fst, a.name = b.name → a.type = b.type := by
  have hnames : (groupedFamilies metricPrefix items).map PrometheusMetricFamily.name
      = ((Grouping.groups (familyKey metricPrefix) items).map Prod.fst).map Prod.fst := by
    rw [groupedFamilies, map_map, map_map]
    rfl
  rw [hnames, nodup_map_iff_inj_on (Grouping.nodup_map_fst_groups _ items)]
  simp only [Grouping.mem_map_fst_groups, forall_exists_index, and_imp, forall_apply_eq_imp_iff₂,
    familyKey, append_cancel_left_eq, Prod.mk.injEq, forall_mem_map]
  grind

theorem samples_groupedFamilies
    : ((groupedFamilies metricPrefix items).flatMap PrometheusMetricFamily.samples).Perm
        (items.map (sampleOf metricPrefix)) := by
  have hsamples : (groupedFamilies metricPrefix items).flatMap PrometheusMetricFamily.samples
      = ((Grouping.groups (familyKey metricPrefix) items).flatMap Prod.snd).map
          (sampleOf metricPrefix) := by
    rw [groupedFamilies, flatMap_map, map_flatMap]
    rfl
  rw [hsamples]
  exact (Grouping.flatMap_snd_groups _ items).map _

theorem pairwise_samples_groupedFamilies
    (hdistinct : items.Pairwise (fun a b => ¬SameSeries a.1 b.1))
    : ((groupedFamilies metricPrefix items).flatMap PrometheusMetricFamily.samples).Pairwise
        (fun a b => ¬(a.name = b.name ∧ SameLabels a.labels b.labels))
      ↔ ∀ a ∈ items.map Prod.fst, ∀ b ∈ items.map Prod.fst,
          a.name = b.name → SameLabels a.labels b.labels → a.labels = b.labels := by
  have hsymm : ∀ {a b : PrometheusSample}, ¬(a.name = b.name ∧ SameLabels a.labels b.labels)
      → ¬(b.name = a.name ∧ SameLabels b.labels a.labels) :=
    fun h hba => h ⟨hba.1.symm, fun label => (hba.2 label).symm⟩
  rw [(samples_groupedFamilies metricPrefix items).pairwise_iff hsymm, pairwise_map]
  simp only [sampleOf, append_cancel_left_eq, forall_mem_map]
  constructor
  . intro h
    have hforward : items.Pairwise (fun a b => a.1.name = b.1.name
        → SameLabels a.1.labels b.1.labels → a.1.labels = b.1.labels) :=
      h.imp (fun hab hname hlabels => absurd ⟨hname, hlabels⟩ hab)
    refine fun a ha => hforward.forall_of_forall_of_flip (fun _ _ _ _ => rfl) (h.imp ?_) ha
    exact fun hab hname hlabels => absurd ⟨hname.symm, fun label => (hlabels label).symm⟩ hab
  . intro h
    refine hdistinct.imp_of_mem ?_
    intro a b ha hb hab hsame
    exact hab ⟨hsame.1, h a ha b hb hsame.1 hsame.2⟩

end

theorem filterMap_healthy {world : ω} {entries : List (Entry ω ε)}
    (hok : ∀ entry ∈ entries, ∃ value, entry.valueFn world = .ok value)
    : (entries.filterMap (Entry.healthy world)).map Prod.fst = entries := by
  induction entries with
  | nil => rfl
  | cons entry entries ih =>
    obtain ⟨value, hvalue⟩ := hok entry mem_cons_self
    have hhealthy : Entry.healthy world entry = some (entry, value) := by
      simp [Entry.healthy, hvalue, Except.toOption]
    rw [filterMap_cons_some hhealthy, map_cons,
      ih (fun e he => hok e (mem_cons_of_mem _ he))]

theorem collect_seriesOnce_iff (metricPrefix : Text) (calls : List (Call ω ε)) (world : ω)
    (hok : ∀ call ∈ calls, ∃ value, call.metric.valueFn world = .ok value)
    : SeriesOnce (collect (registered metricPrefix calls) world []).1
      ↔ ∀ a b, Current calls a → Current calls b → a.name = b.name
          → a.type = b.type ∧ (SameLabels a.labels b.labels → a.labels = b.labels) := by
  have hok : ∀ entry ∈ (registered metricPrefix calls).entries,
      ∃ value, entry.valueFn world = .ok value := by
    intro entry hentry
    obtain ⟨before, call, after, rfl, rfl, -⟩ := (mem_registered metricPrefix calls entry).mp hentry
    exact hok call (by simp)
  have hitems := filterMap_healthy hok
  have hdistinct := distinct_registered metricPrefix calls
  rw [← hitems] at hdistinct
  rw [collect_healthy, nil_append, SeriesOnce, metricPrefix_registered,
    nodup_names_groupedFamilies,
    pairwise_samples_groupedFamilies _ _ (pairwise_map.mp hdistinct), hitems]
  simp only [mem_registered]
  constructor
  . rintro ⟨htypes, hlabels⟩ a b ha hb hname
    exact ⟨htypes a ha b hb hname, hlabels a ha b hb hname⟩
  . intro h
    exact ⟨fun a ha b hb hname => (h a b ha hb hname).1,
      fun a ha b hb hname => (h a b ha hb hname).2⟩

def twoLabels : List PrometheusLabel :=
  [⟨['a'], ['1']⟩, ⟨['b'], ['2']⟩]

def gaugeCall (labels : List PrometheusLabel) : Call Unit Unit :=
  .setGauge ['g'] [] (fun _ => .ok .nan) labels

def counterCall (name : Text) : Call Unit Unit :=
  .setCounter name [] (fun _ => .ok .nan) []

theorem collect_seriesOnce_gauge_counter
    : SeriesOnce (collect (registered [] [gaugeCall twoLabels, counterCall ['c']]) () []).1 := by
  refine (collect_seriesOnce_iff [] _ () ?_).mpr ?_
  . simp [gaugeCall, counterCall, Call.metric]
  . intro a b ha hb hname
    rw [← mem_registered []] at ha hb
    have hentries : (registered [] [gaugeCall twoLabels, counterCall ['c']]).entries
        = [(gaugeCall twoLabels).metric, (counterCall ['c']).metric] := rfl
    rw [hentries, mem_pair] at ha hb
    obtain rfl | rfl := ha <;> obtain rfl | rfl := hb <;>
      simp_all [gaugeCall, counterCall, Call.metric]

theorem collect_series_twice
    : (twoLabels.map PrometheusLabel.name).Nodup
      ∧ ¬SeriesOnce (collect (registered [] [gaugeCall twoLabels, gaugeCall twoLabels.reverse])
          () []).1
      ∧ ¬SeriesOnce (collect (registered [] [gaugeCall twoLabels, counterCall ['g']]) () []).1 := by
  refine ⟨by decide, fun h => ?_, fun h => absurd h.1 (by decide)⟩
  have hsamples : (collect (registered [] [gaugeCall twoLabels, gaugeCall twoLabels.reverse])
      () []).1.flatMap PrometheusMetricFamily.samples
      = [{ name := ['g'], value := .nan, labels := twoLabels },
          { name := ['g'], value := .nan, labels := twoLabels.reverse }] := rfl
  have hpair := h.2
  rw [hsamples, pairwise_pair] at hpair
  exact hpair ⟨rfl, fun label => mem_reverse.symm⟩

end LogIt.Prometheus
