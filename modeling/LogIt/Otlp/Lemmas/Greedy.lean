import Mathlib.Data.List.Chain
import LogIt.Otlp.Lemmas.Serializer
import LogIt.Otlp.Splitter

namespace LogIt.Otlp

open List

section

variable {α : Type} (build : List α → List UInt8) (maxPayloadBytes : Nat)

def Fits (segment : List α) : Prop :=
  (build segment).length ≤ maxPayloadBytes ∨ segment.length = 1

def Exceeds (segment next : List α) : Prop :=
  ∀ item ∈ next.head?, maxPayloadBytes < (build (segment ++ [item])).length

structure GreedyCut (segments : List (List α)) : Prop where
  nonempty : ∀ segment ∈ segments, segment ≠ []
  fits : ∀ segment ∈ segments, Fits build maxPayloadBytes segment
  chain : segments.IsChain (Exceeds build maxPayloadBytes)

structure SplitState.Greedy (s : SplitState α) : Prop where
  cut : GreedyCut build maxPayloadBytes s.chunks
  current : Fits build maxPayloadBytes s.currentPayload ∨ s.currentPayload = []
  -- for every item, as it is not known what comes next while the current payload is empty
  link : ∀ segment ∈ s.chunks.getLast?, ∀ item,
    Exceeds build maxPayloadBytes segment (s.currentPayload ++ [item])

variable {build maxPayloadBytes}

theorem GreedyCut.concat {segment : List α} (h : GreedyCut build maxPayloadBytes segments)
    (hne : segment ≠ [])
    (hfits : Fits build maxPayloadBytes segment)
    (hlink : ∀ last ∈ segments.getLast?, Exceeds build maxPayloadBytes last segment)
    : GreedyCut build maxPayloadBytes (segments ++ [segment]) := by
  constructor
  . simpa [or_imp, forall_and] using ⟨h.nonempty, hne⟩
  . simpa [or_imp, forall_and] using ⟨h.fits, hfits⟩
  . rw [isChain_append]
    refine ⟨h.chain, isChain_singleton _, ?_⟩
    intro last hlast next hnext
    cases hnext
    exact hlink last hlast

variable (hmono : ∀ batch item, (build batch).length ≤ (build (batch ++ [item])).length)

include hmono

theorem greedy_splitItem (h : s.Greedy build maxPayloadBytes) (item : α)
    : (splitItem build maxPayloadBytes s item).Greedy build maxPayloadBytes := by
  unfold splitItem
  dsimp only
  split
  . next hle =>
    refine ⟨h.cut, .inl (.inl hle), ?_⟩
    intro segment hlast item' next hnext
    exact h.link segment hlast item next (by simpa using hnext)
  . next hgt =>
    rw [Nat.not_le] at hgt
    split
    . next hempty =>
      rw [List.isEmpty_iff] at hempty
      have hlink := h.link
      rw [hempty] at hgt hlink ⊢
      refine ⟨h.cut.concat (by simp) (.inr rfl) (fun last hlast => hlink last hlast item),
        .inr rfl, ?_⟩
      intro segment hlast item' next _
      rw [getLast?_concat] at hlast
      cases hlast
      exact Nat.lt_of_lt_of_le hgt (hmono _ next)
    . next hcurrent =>
      rw [List.isEmpty_iff] at hcurrent
      refine ⟨h.cut.concat hcurrent (h.current.resolve_right hcurrent) ?_, .inl (.inr rfl), ?_⟩
      . intro last hlast next hnext
        exact h.link last hlast item next (List.mem_head?_append_of_mem_head? hnext)
      . intro segment hlast item' next hnext
        rw [getLast?_concat] at hlast
        cases hlast
        cases hnext
        exact hgt

theorem greedy_foldl (batch : List α) (h : s.Greedy build maxPayloadBytes)
    : (batch.foldl (splitItem build maxPayloadBytes) s).Greedy build maxPayloadBytes := by
  induction batch generalizing s with
  | nil => exact h
  | cons item _ ih => exact ih (greedy_splitItem hmono h item)

theorem greedyCut_payloadChunks (hmax : 0 < maxPayloadBytes) (batch : List α)
    : GreedyCut build maxPayloadBytes (payloadChunks build maxPayloadBytes batch) := by
  have hinit : SplitState.Greedy build maxPayloadBytes ⟨[], []⟩ :=
    ⟨⟨by simp, by simp, isChain_nil⟩, .inr rfl, by simp⟩
  have hgreedy := greedy_foldl hmono batch hinit
  unfold payloadChunks
  rw [if_neg (Nat.ne_of_gt hmax)]
  dsimp only
  split
  . exact hgreedy.cut
  . next hcurrent =>
    rw [List.isEmpty_iff] at hcurrent
    apply hgreedy.cut.concat hcurrent (hgreedy.current.resolve_right hcurrent)
    intro last hlast next hnext
    exact hgreedy.link last hlast next next (List.mem_head?_append_of_mem_head? hnext)

end

def payloadBytes (config : OtlpJsonFormatConfig) (batch : List OtlpLogItem) : List UInt8 :=
  (buildOtlpLogsJsonPayload config batch).map (fun c => UInt8.ofNat c.toNat)

theorem length_payloadBytes_le (config : OtlpJsonFormatConfig) (batch : List OtlpLogItem)
    (item : OtlpLogItem)
    : (payloadBytes config batch).length ≤ (payloadBytes config (batch ++ [item])).length := by
  unfold payloadBytes buildOtlpLogsJsonPayload
  simp only [length_map, length_append, mapIdx_concat, flatten_append]
  omega

theorem payload_chunks_greedy (config : OtlpJsonFormatConfig) (maxPayloadBytes : Nat)
    (hmax : 1 ≤ maxPayloadBytes) (batch : List OtlpLogItem)
    : ∃ segments, buildOtlpLogsJsonPayloadChunks (payloadBytes config) maxPayloadBytes batch
          = segments.map (payloadBytes config) ∧
        segments.flatten = batch ∧ GreedyCut (payloadBytes config) maxPayloadBytes segments := by
  refine ⟨payloadChunks (payloadBytes config) maxPayloadBytes batch, rfl, ?_, ?_⟩
  . exact flatten_payloadChunks _ _ batch
  . exact greedyCut_payloadChunks (length_payloadBytes_le config) hmax batch

theorem payload_chunks_greedy_one
    : ∃ segments, buildOtlpLogsJsonPayloadChunks (payloadBytes {}) 1 [⟨{}, ['a']⟩, ⟨{}, ['b']⟩]
          = segments.map (payloadBytes {}) ∧
        segments.flatten = [⟨{}, ['a']⟩, ⟨{}, ['b']⟩] ∧ GreedyCut (payloadBytes {}) 1 segments :=
  payload_chunks_greedy {} 1 (Nat.le_refl 1) _

section Delivery

open JsonText

def children (key : String) (value : Value) : List Value :=
  match value with
  | .object members =>
    match members.lookup key.toList with
    | some (.array elements) => elements
    | some child => [child]
    | none => []
  | _ => []

/--
The messages that a receiver finds in a payload.
-/
def receivedMessages (payload : List Char) : List Value :=
  ["resourceLogs", "scopeLogs", "logRecords", "body", "stringValue"].foldl
    (fun values key => values.flatMap (children key)) (parse payload).toList

theorem receivedMessages_eq (config : OtlpJsonFormatConfig) (batch : List OtlpLogItem)
    : receivedMessages (buildOtlpLogsJsonPayload config batch)
        = batch.map (fun item => .string item.message) := by
  have hparse : parse (buildOtlpLogsJsonPayload config batch) = some (requestValue config batch) := by
    rw [← print_requestValue]
    apply parse_print escapes_escapeChar
    simp
  unfold receivedMessages
  rw [hparse, map_eq_flatMap]
  simp [requestValue, object, children, lookup_cons, flatMap_assoc, flatMap_map, recordValue]

theorem chunks_deliver_messages (config : OtlpJsonFormatConfig) (maxPayloadBytes : Nat)
    (batch : List OtlpLogItem)
    : (payloadChunks (payloadBytes config) maxPayloadBytes batch).flatMap
        (fun segment => receivedMessages (buildOtlpLogsJsonPayload config segment))
      = batch.map (fun item => .string item.message) := by
  simp only [receivedMessages_eq]
  rw [flatMap_def, ← map_flatten, flatten_payloadChunks]

end Delivery

end LogIt.Otlp
