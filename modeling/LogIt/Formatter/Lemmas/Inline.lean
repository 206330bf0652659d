import LogIt.Formatter.Lemmas.Items

namespace LogIt.Formatter

open List

namespace CompileState

def toggle (item : Item) : Option Bool :=
  match item with
  | .placeholder _ (.strip on) => some on
  | _ => none

def strips (strip : Bool) (item : Item) : Bool :=
  (toggle item).getD strip

theorem foldl_strips_of_toggle {items : List Item} (h : ∀ item ∈ items, toggle item = none)
    (strip : Bool)
    : items.foldl strips strip = strip := by
  have hfold : items.foldl strips strip = items.foldl (fun strip _ => strip) strip := by
    apply foldl_ext
    intro strip item hitem
    rw [strips, h item hitem]
    rfl
  rw [hfold, foldl_fixed]

theorem buffer_flush (context : CompileContext) (s : CompileState)
    : (s.flush context).buffer = [] := by
  unfold flush
  split
  . next h => exact isEmpty_iff.mp h
  . rfl

theorem stripAnsi_flush (context : CompileContext) (s : CompileState)
    : (s.flush context).stripAnsi = s.stripAnsi := by
  unfold flush
  split
  all_goals rfl

end CompileState

section Meaning

open CompileState

def flushed (strip : Bool) (buffer : Text) : Text :=
  if strip then removeAnsiEscapeCodes buffer else buffer

theorem flushed_nil (strip : Bool) : flushed strip [] = [] := by
  cases strip with
  | _ => rfl

section

variable (write : FormatInstruction → Text) (body : Text → Text)

def Token.written (strip : Bool) (spec : Spec) (token : Token) : Text :=
  match token with
  | .field type key => write (.ofField .default type spec strip key)
  | .color type => write (.ofField .default type {} strip [])
  | .noArgs params => body params
  | _ => []

def Token.kept (token : Token) : Text :=
  match token with
  | .char c => [c]
  | _ => []

/--
What items write, without the states of the compiler.
-/
def meaning (strip : Bool) (buffer : Text) (items : List Item) : Text :=
  match items with
  | [] => flushed strip buffer
  | .text c :: items => meaning strip (buffer ++ [c]) items
  | .percent :: items => flushed strip buffer ++ meaning strip [] items
  | .placeholder spec token :: items =>
    flushed strip buffer ++ (token.written write body strip spec
      ++ meaning (strips strip (.placeholder spec token)) token.kept items)

end

variable {write : FormatInstruction → Text} {body : Text → Text}

theorem meaning_congr (body' : Text → Text) (strip : Bool) (buffer : Text) {items : List Item}
    (h : ∀ spec params, .placeholder spec (.noArgs params) ∉ items)
    : meaning write body strip buffer items = meaning write body' strip buffer items := by
  induction items generalizing strip buffer with
  | nil => rfl
  | cons item items ih =>
    have ih (strip : Bool) (buffer : Text) :=
      ih strip buffer (fun spec params hmem => h spec params (mem_cons_of_mem _ hmem))
    cases item with
    | text c => exact ih _ _
    | percent => rw [meaning, meaning, ih]
    | placeholder spec token =>
      rw [meaning, meaning, ih]
      cases token with
      | noArgs params => exact absurd mem_cons_self (h spec params)
      | _ => rfl

theorem meaning_placeholder (strip : Bool) (buffer : Text) (spec : Spec) (token : Token)
    (items items' : List Item)
    : meaning write body strip buffer (items ++ .placeholder spec token :: items') =
        meaning write body strip buffer items
          ++ meaning write body (items.foldl strips strip) [] (.placeholder spec token :: items') := by
  induction items generalizing strip buffer with
  | nil => rw [meaning, nil_append, foldl_nil, meaning, meaning, flushed_nil, nil_append]
  | cons item items ih =>
    rw [cons_append, foldl_cons]
    cases item with
    | text c => exact ih strip _
    | percent =>
      rw [meaning, meaning, ih, append_assoc]
      rfl
    | placeholder spec' token' => rw [meaning, meaning, ih, append_assoc, append_assoc]

theorem meaning_buffer (buffer : Text) (items : List Item)
    : meaning write body false buffer items = buffer ++ meaning write body false [] items := by
  induction items generalizing buffer with
  | nil => exact (append_nil _).symm
  | cons item items ih =>
    cases item with
    | text c => rw [meaning, meaning, ih, ih ([] ++ [c]), append_assoc, nil_append]
    | _ => rfl

theorem meaning_append (strip : Bool) (buffer : Text) {items : List Item}
    (h : items.foldl strips strip = false) (items' : List Item)
    : meaning write body strip buffer (items ++ items') =
        meaning write body strip buffer items ++ meaning write body false [] items' := by
  induction items generalizing strip buffer with
  | nil =>
    rw [foldl_nil] at h
    rw [h]
    exact meaning_buffer buffer items'
  | cons item items ih =>
    rw [foldl_cons] at h
    rw [cons_append]
    cases item with
    | text c => exact ih _ _ h
    | percent => rw [meaning, meaning, ih strip _ h, append_assoc]
    | placeholder spec token => rw [meaning, meaning, ih _ _ h, append_assoc, append_assoc]

end Meaning

section Fold

open CompileState FormatInstruction

variable (build : Build) (time : TimeShield) (record : LogRecord) (dt : DateTime)

def concealed (context : CompileContext) (text : Text) : Text :=
  if context = .noArgsFallback ∧ (record.format ≠ [] ∨ record.argsArray ≠ []) then [] else text

variable {build time record dt} {context : CompileContext}

theorem concealed_append (s t : Text)
    : concealed record context (s ++ t) = concealed record context s ++ concealed record context t := by
  unfold concealed
  split <;> rfl

theorem concealed_nil : concealed record context [] = [] := by
  unfold concealed
  split <;> rfl

theorem concealed_default (text : Text) : concealed record .default text = text := by
  unfold concealed
  rw [if_neg (by simp)]

theorem applyAll_push (s : CompileState) (i : FormatInstruction)
    : applyAll build time (s.push [i]).instructions record dt =
        applyAll build time s.instructions record dt ++ i.apply build time record dt := by
  refine flatMap_append.trans ?_
  rw [flatMap_singleton]
  rfl

theorem apply_ofField (type : FormatType) (spec : Spec) (strip : Bool) (key : Text)
    : (ofField context type spec strip key).apply build time record dt =
        concealed record context
          ((ofField .default type spec strip key).apply build time record dt) :=
  congrArg (concealed record context) (concealed_default _).symm

theorem apply_ofText (text : Text) (strip : Bool)
    : (ofText context text strip).apply build time record dt =
        concealed record context (flushed strip text) := by
  apply congrArg (concealed record context)
  cases strip with
  | _ => simp [marker, aligned, truncated, value, render, ofText, flushed]

theorem apply_startColor (strip : Bool)
    : (ofField .default .startColor {} strip []).apply build time record dt =
        if strip then [] else build.getLogLevelColor record.logLevel := by
  apply (concealed_default _).trans
  cases strip with
  | _ => simp [marker, aligned, truncated, value, render, ofField, removeAnsiEscapeCodes, removeFrom]

theorem applyAll_flush (s : CompileState)
    : applyAll build time (s.flush context).instructions record dt =
        applyAll build time s.instructions record dt
          ++ concealed record context (flushed s.stripAnsi s.buffer) := by
  unfold flush
  split
  . next h => rw [isEmpty_iff.mp h, flushed_nil, concealed_nil, append_nil]
  . rw [← apply_ofText]
    exact applyAll_push s _

variable {body : Text → List FormatInstruction}
  (hbody : ∀ params, concealed record context (applyAll build time (body params) record dt) =
    applyAll build time (body params) record dt)

include hbody

theorem applyAll_token {u : CompileState} (hu : u.buffer = []) (spec : Spec) (token : Token)
    : applyAll build time (u.token context body spec token).instructions record dt =
        applyAll build time u.instructions record dt
          ++ concealed record context (token.written (·.apply build time record dt)
            (fun params => applyAll build time (body params) record dt) u.stripAnsi spec) ∧
      (u.token context body spec token).stripAnsi = strips u.stripAnsi (.placeholder spec token) ∧
      (u.token context body spec token).buffer = token.kept := by
  have hnone : applyAll build time u.instructions record dt =
      applyAll build time u.instructions record dt ++ concealed record context [] := by
    rw [concealed_nil, append_nil]
  cases token with
  | field type key | color type =>
    refine ⟨?_, rfl, hu⟩
    rw [Token.written, ← apply_ofField]
    exact applyAll_push u _
  | noArgs params =>
    refine ⟨?_, rfl, hu⟩
    rw [Token.written, hbody]
    exact flatMap_append
  | strip on | nothing => exact ⟨hnone, rfl, hu⟩
  | char c => exact ⟨hnone, rfl, congrArg (· ++ [c]) hu⟩

theorem applyAll_foldl (s : CompileState) (items : List Item)
    : applyAll build time ((items.foldl (step context body) s).flush context).instructions record dt =
        applyAll build time s.instructions record dt
          ++ concealed record context (meaning (·.apply build time record dt)
            (fun params => applyAll build time (body params) record dt) s.stripAnsi s.buffer items) := by
  induction items generalizing s with
  | nil => exact applyAll_flush s
  | cons item items ih =>
    rw [foldl_cons, ih]
    cases item with
    | text c => rfl
    | percent =>
      rw [meaning, concealed_append, ← append_assoc, ← applyAll_flush, ← stripAnsi_flush context s]
      unfold step
      dsimp only
      rw [buffer_flush]
    | placeholder spec token =>
      obtain ⟨happly, hstrip, hbuffer⟩ := applyAll_token hbody (buffer_flush context s) spec token
      rw [meaning, concealed_append, concealed_append, ← append_assoc, ← append_assoc,
        ← applyAll_flush, ← stripAnsi_flush context s, ← happly, ← hstrip, ← hbuffer]
      rfl

end Fold

section Inline

open CompileState

def NoToggle (pattern : Text) : Prop :=
  ∀ item ∈ items pattern, toggle item = none

instance (pattern : Text) : Decidable (NoToggle pattern) :=
  inferInstanceAs (Decidable (∀ item ∈ items pattern, toggle item = none))

def stripsAfter (pattern : Text) : Bool :=
  (items pattern).foldl strips false

def withNoArgs (a p b : Text) : Text :=
  a ++ (['%', 'N', '('] ++ p ++ [')'] ++ b)

variable {build : Build} {time : TimeShield} {record : LogRecord} {dt : DateTime}

theorem formatAsPattern_eq (offsetMs : Int) (pattern : Text)
    (hdt : dt = time.toDateTimeMs (record.timestampMs + offsetMs))
    : formatAsPattern build time offsetMs pattern record =
        meaning (·.apply build time record dt)
          (fun params => applyAll build time (compileWithin pattern.length .noArgsFallback params)
            record dt) false [] (items pattern) := by
  rw [hdt]
  exact (applyAll_foldl (fun _ => concealed_default _) {} (items pattern)).trans
    (@concealed_default record _)

theorem applyAll_compileWithin (depth : Nat) (p : Text)
    : applyAll build time (compileWithin (depth + 1) .noArgsFallback p) record dt =
        concealed record .noArgsFallback (meaning (·.apply build time record dt)
          (fun params => applyAll build time (compileWithin depth .noArgsFallback params) record dt)
          false [] (items p)) := by
  have hidem (text : Text) : concealed record .noArgsFallback (concealed record .noArgsFallback text) =
      concealed record .noArgsFallback text := by
    unfold concealed
    split <;> rfl
  induction depth generalizing p with
  | zero => exact applyAll_foldl (fun _ => concealed_nil) {} (items p)
  | succ depth ih =>
    apply applyAll_foldl (fun params => ?_) {} (items p)
    rw [ih, hidem]

variable (build time record dt) in
/--
What a pattern without `%N(...)` writes.
-/
def plainMeaning (strip : Bool) (pattern : Text) : Text :=
  meaning (·.apply build time record dt) (fun _ => []) strip [] (items pattern)

theorem meaning_plain {pattern : Text} (h : Plain pattern) (body : Text → Text) (strip : Bool)
    : meaning (·.apply build time record dt) body strip [] (items pattern) =
        plainMeaning build time record dt strip pattern :=
  meaning_congr _ strip [] (noArgs_notMem_items h)

theorem plainMeaning_append (ha : Plain a) (hclosed : Closed a) (hstrips : stripsAfter a = false)
    (b : Text)
    : plainMeaning build time record dt false (a ++ b) =
        plainMeaning build time record dt false a ++ plainMeaning build time record dt false b := by
  unfold plainMeaning
  rw [items_append b ha hclosed]
  exact meaning_append false [] hstrips _

structure PatternPart where
  text : Text
  plain : Plain text
  closed : Closed text
  strips : stripsAfter text = false

theorem formatAsPattern_parts (build : Build) (time : TimeShield) (offsetMs : Int)
    (record : LogRecord) (parts : List PatternPart)
    : formatAsPattern build time offsetMs (parts.flatMap PatternPart.text) record =
        parts.flatMap (fun part => formatAsPattern build time offsetMs part.text record) := by
  have heq {pattern : Text} (hplain : Plain pattern)
      : formatAsPattern build time offsetMs pattern record =
          plainMeaning build time record _ false pattern :=
    (formatAsPattern_eq offsetMs pattern rfl).trans (meaning_plain hplain _ false)
  have hplain (parts : List PatternPart) : Plain (parts.flatMap PatternPart.text) := by
    intro c hc
    obtain ⟨part, _, hmem⟩ := mem_flatMap.mp hc
    exact part.plain c hmem
  induction parts with
  | nil => rfl
  | cons part parts ih =>
    rw [heq (hplain _), flatMap_cons, flatMap_cons, plainMeaning_append part.plain part.closed part.strips,
      ← ih, heq part.plain, heq (hplain _)]

theorem formatAsPattern_withNoArgs (offsetMs : Int) (ha : Plain a) (hclosed : Closed a) (hp : Plain p)
    (hb : Plain b) (hdt : dt = time.toDateTimeMs (record.timestampMs + offsetMs))
    : formatAsPattern build time offsetMs (withNoArgs a p b) record =
        plainMeaning build time record dt false a
          ++ (concealed record .noArgsFallback (plainMeaning build time record dt false p)
            ++ plainMeaning build time record dt (stripsAfter a) b) := by
  have hitems : items (withNoArgs a p b) = items a ++ .placeholder {} (.noArgs p) :: items b := by
    unfold withNoArgs
    rw [items_append _ ha hclosed, items_noArgs b hp]
  obtain ⟨depth, hdepth⟩ := Nat.exists_eq_succ_of_ne_zero
    (show (withNoArgs a p b).length ≠ 0 by simp [withNoArgs])
  rw [formatAsPattern_eq _ _ hdt, hitems, hdepth, meaning_placeholder, meaning_plain ha, meaning,
    flushed_nil, nil_append, Token.written, applyAll_compileWithin, meaning_plain hp]
  exact congrArg _ (congrArg _ (meaning_plain hb _ _))

theorem formatAsPattern_inline (offsetMs : Int) (ha : Plain a) (hclosed : Closed a)
    (hstrips : stripsAfter a = false) (hp : Plain p) (hpclosed : Closed p) (htoggle : NoToggle p)
    (hb : Plain b)
    : formatAsPattern build time offsetMs (withNoArgs a p b) record =
        if record.format = [] ∧ record.argsArray = [] then
          formatAsPattern build time offsetMs (a ++ (p ++ b)) record
        else
          formatAsPattern build time offsetMs (a ++ b) record := by
  have hplain {s t : Text} (hs : Plain s) (ht : Plain t) : Plain (s ++ t) :=
    fun c hc => (mem_append.mp hc).elim (hs c) (ht c)
  rw [formatAsPattern_withNoArgs offsetMs ha hclosed hp hb rfl, formatAsPattern_eq _ (a ++ (p ++ b)) rfl,
    formatAsPattern_eq _ (a ++ b) rfl, meaning_plain (hplain ha (hplain hp hb)),
    meaning_plain (hplain ha hb), plainMeaning_append ha hclosed hstrips,
    plainMeaning_append hp hpclosed (foldl_strips_of_toggle htoggle false),
    plainMeaning_append ha hclosed hstrips, hstrips]
  unfold concealed
  split
  . next h => rw [if_neg (not_and_or.mpr h.2), nil_append]
  . next h => rw [if_pos (by simpa using h)]

theorem formatAsPattern_color_ne (record : LogRecord) (ha : Plain a) (hclosed : Closed a)
    (hstrips : stripsAfter a = true) (hrecord : record.format = [] ∧ record.argsArray = [])
    (offsetMs : Int)
    : formatAsPattern build time offsetMs (withNoArgs a ['%', '^', ' '] []) record ≠
        formatAsPattern build time offsetMs (a ++ (['%', '^', ' '] ++ [])) record := by
  have hitems : items ['%', '^', ' '] = [.placeholder {} (.color .startColor), .text ' '] := by decide
  have hshown (text : Text) : concealed record .noArgsFallback text = text := by
    rw [concealed, if_neg (by simp [hrecord])]
  rw [formatAsPattern_withNoArgs offsetMs ha hclosed (by decide) (by decide) rfl,
    formatAsPattern_eq _ _ rfl, items_append _ ha hclosed, append_nil, hitems, meaning_placeholder,
    meaning_plain ha, hshown, hstrips, show (items a).foldl strips false = true from hstrips]
  unfold plainMeaning
  rw [hitems]
  intro h
  have hlen := congrArg length (append_cancel_left h)
  simp [meaning, Token.written, Token.kept, apply_startColor, flushed, items, readItems,
    removeAnsiEscapeCodes, removeFrom, strips, toggle, Build.getLogLevelColor, TextColor.toString] at hlen

theorem noArgs_inlines_iff (build : Build) (time : TimeShield) (offsetMs : Int) {a : Text}
    (ha : Plain a) (hclosed : Closed a)
    : (∀ p b record, Plain p → Closed p → NoToggle p → Plain b →
        (record.format = [] ∧ record.argsArray = [] →
          formatAsPattern build time offsetMs (withNoArgs a p b) record =
            formatAsPattern build time offsetMs (a ++ (p ++ b)) record) ∧
        (record.format ≠ [] ∨ record.argsArray ≠ [] →
          formatAsPattern build time offsetMs (withNoArgs a p b) record =
            formatAsPattern build time offsetMs (a ++ b) record)) ↔
      stripsAfter a = false := by
  constructor
  . intro h
    by_contra hstrips
    rw [Bool.not_eq_false] at hstrips
    exact formatAsPattern_color_ne default ha hclosed hstrips ⟨rfl, rfl⟩ offsetMs
      ((h ['%', '^', ' '] [] default (by decide) (by decide) (by decide) (by decide)).1 ⟨rfl, rfl⟩)
  . intro hstrips p b record hp hpclosed htoggle hb
    have heq := @formatAsPattern_inline build time record a p b offsetMs ha hclosed hstrips hp
      hpclosed htoggle hb
    constructor
    . intro hrecord
      rw [heq, if_pos hrecord]
    . intro hrecord
      rw [heq, if_neg (not_and_or.mpr hrecord)]

theorem noArgs_inlines_after_toggles
    : stripsAfter ['%', 'S', 'C', ' ', '%', 'E', 'C', ' '] = false ∧
      formatAsPattern .standard default 0
          (withNoArgs ['%', 'S', 'C', ' ', '%', 'E', 'C', ' '] ['%', '^', ' '] ['%', 'v']) default =
        formatAsPattern .standard default 0
          (['%', 'S', 'C', ' ', '%', 'E', 'C', ' '] ++ (['%', '^', ' '] ++ ['%', 'v'])) default :=
  have hstrips : stripsAfter ['%', 'S', 'C', ' ', '%', 'E', 'C', ' '] = false := by decide
  ⟨hstrips, ((noArgs_inlines_iff .standard default 0 (by decide) (by decide)).mpr hstrips
    ['%', '^', ' '] ['%', 'v'] default (by decide) (by decide) (by decide) (by decide)).1 ⟨rfl, rfl⟩⟩

theorem noArgs_ignores_stripping
    : Plain ['%', 'S', 'C', ' '] ∧ Closed ['%', 'S', 'C', ' '] ∧
      Plain ['%', '^', ' '] ∧ Closed ['%', '^', ' '] ∧ NoToggle ['%', '^', ' '] ∧
      (default : LogRecord).format = [] ∧ (default : LogRecord).argsArray = [] ∧
      formatAsPattern .standard default 0
          (['%', 'S', 'C', ' '] ++ (['%', 'N', '('] ++ ['%', '^', ' '] ++ [')'] ++ [])) default =
        [' ', esc, '[', '9', '0', 'm', ' '] ∧
      formatAsPattern .standard default 0 (['%', 'S', 'C', ' '] ++ (['%', '^', ' '] ++ [])) default =
        [' ', ' '] := by
  refine ⟨?_, ?_, ?_, ?_, ?_, rfl, rfl, ?_, ?_⟩
  all_goals decide

end Inline
end LogIt.Formatter
