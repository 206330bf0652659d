import Mathlib.Data.List.Basic
import Mathlib.Data.Nat.Bitwise
import Mathlib.Tactic.Ring

/-!
This module contains parsers that read bytes through a checked cursor, integers in big endian order
with the order of their bytes, and the rules for showing that a parser inverts a code.
-/

def bigEndian {w : Nat} (value : BitVec w) : Nat → List UInt8
  | 0 => []
  | count + 1 =>
    UInt8.ofBitVec (((value >>> (8 * count)) &&& 0xFF#w).setWidth 8) :: bigEndian value count

def shiftIn {w : Nat} (value : BitVec w) (byte : UInt8) : BitVec w :=
  (value <<< 8) ||| byte.toBitVec.setWidth w

theorem length_bigEndian (value : BitVec w) (count : Nat)
    : (bigEndian value count).length = count := by
  induction count with
  | zero => rfl
  | succ count ih => simp [bigEndian, ih]

section BigEndian

variable {w : Nat}

theorem toNat_shiftIn (value : BitVec w) (byte : UInt8) (hw : 8 ≤ w)
    : (shiftIn value byte).toNat = (value.toNat * 2 ^ 8 + byte.toNat) % 2 ^ w := by
  have hbyte : byte.toNat < 2 ^ 8 := byte.toNat_lt
  have hpow : 2 ^ w = 2 ^ 8 * 2 ^ (w - 8) := by
    rw [← Nat.pow_add]
    congr 1
    omega
  have hlow : byte.toNat % 2 ^ w = byte.toNat := by
    apply Nat.mod_eq_of_lt
    apply Nat.lt_of_lt_of_le hbyte
    apply Nat.pow_le_pow_right
    . omega
    . exact hw
  have hhigh : value.toNat * 2 ^ 8 % 2 ^ w = 2 ^ 8 * (value.toNat % 2 ^ (w - 8)) := by
    rw [hpow, Nat.mul_comm value.toNat]
    apply Nat.mul_mod_mul_left
  unfold shiftIn
  rw [BitVec.toNat_or, BitVec.toNat_shiftLeft, BitVec.toNat_setWidth, Nat.shiftLeft_eq]
  rw [show byte.toBitVec.toNat = byte.toNat from rfl, hlow, hhigh]
  rw [← Nat.two_pow_add_eq_or_of_lt hbyte]
  rw [Nat.add_mod, hhigh, hlow, hpow]
  symm
  apply Nat.mod_eq_of_lt
  have hmod : value.toNat % 2 ^ (w - 8) < 2 ^ (w - 8) := by
    apply Nat.mod_lt
    apply Nat.two_pow_pos
  calc
    2 ^ 8 * (value.toNat % 2 ^ (w - 8)) + byte.toNat
      < 2 ^ 8 * (value.toNat % 2 ^ (w - 8)) + 2 ^ 8 := by omega
    _ = 2 ^ 8 * (value.toNat % 2 ^ (w - 8) + 1) := by rw [Nat.mul_add, Nat.mul_one]
    _ ≤ 2 ^ 8 * 2 ^ (w - 8) := by
      apply Nat.mul_le_mul_left
      exact hmod

theorem toNat_byte (value : BitVec w) (count : Nat) (hw : 8 ≤ w)
    : (UInt8.ofBitVec (((value >>> (8 * count)) &&& 0xFF#w).setWidth 8)).toNat
        = value.toNat / 2 ^ (8 * count) % 2 ^ 8 := by
  have hmask : (0xFF#w).toNat = 2 ^ 8 - 1 := by
    rw [BitVec.toNat_ofNat]
    apply Nat.mod_eq_of_lt
    calc
      255 < 2 ^ 8 := by decide
      _ ≤ 2 ^ w := Nat.pow_le_pow_right (by decide) hw
  rw [UInt8.toNat_ofBitVec, BitVec.toNat_setWidth, BitVec.toNat_and, hmask]
  rw [BitVec.toNat_ushiftRight, Nat.shiftRight_eq_div_pow, Nat.and_two_pow_sub_one_eq_mod]
  rw [Nat.mod_mod]

theorem toNat_foldl_bigEndian (value acc : BitVec w) (count : Nat) (hw : 8 ≤ w)
    : ((bigEndian value count).foldl shiftIn acc).toNat
        = (acc.toNat * 2 ^ (8 * count) + value.toNat % 2 ^ (8 * count)) % 2 ^ w := by
  induction count generalizing acc with
  | zero =>
    simp only [bigEndian, List.foldl_nil, Nat.mul_zero, Nat.pow_zero, Nat.mod_one, Nat.mul_one,
      Nat.add_zero]
    rw [Nat.mod_eq_of_lt acc.isLt]
  | succ count ih =>
    have hsplit : value.toNat % 2 ^ (8 * (count + 1))
        = 2 ^ (8 * count) * (value.toNat / 2 ^ (8 * count) % 2 ^ 8)
          + value.toNat % 2 ^ (8 * count) := by
      rw [show 8 * (count + 1) = 8 * count + 8 by omega, Nat.pow_add]
      rw [Nat.mod_mul]
      omega
    have hmod (a b c : Nat) : (a % 2 ^ w * b + c) % 2 ^ w = (a * b + c) % 2 ^ w := by
      simp [Nat.add_mod, Nat.mul_mod]
    unfold bigEndian
    rw [List.foldl_cons, ih, toNat_shiftIn _ _ hw, toNat_byte _ _ hw, hmod, hsplit]
    congr 1
    rw [show 8 * (count + 1) = 8 + 8 * count by omega, Nat.pow_add]
    ring

theorem foldl_bigEndian (value : BitVec w) (count : Nat) (hw : 8 ≤ w) (hcount : w = 8 * count)
    : (bigEndian value count).foldl shiftIn 0#w = value := by
  apply BitVec.eq_of_toNat_eq
  rw [toNat_foldl_bigEndian _ _ _ hw, ← hcount]
  simp [Nat.mod_eq_of_lt value.isLt]

theorem exists_toNat_foldl_shiftIn (bytes : List UInt8) (acc : BitVec w) (hw : 8 ≤ w)
    : ∃ low, low < 2 ^ (8 * bytes.length) ∧
        (bytes.foldl shiftIn acc).toNat = (2 ^ (8 * bytes.length) * acc.toNat + low) % 2 ^ w := by
  induction bytes generalizing acc with
  | nil =>
    refine ⟨0, by simp, ?_⟩
    simp [Nat.mod_eq_of_lt acc.isLt]
  | cons byte bytes ih =>
    obtain ⟨low, hlow, hvalue⟩ := ih (shiftIn acc byte)
    have hbyte : byte.toNat < 2 ^ 8 := byte.toNat_lt
    have hpow : 2 ^ (8 * (byte :: bytes).length) = 2 ^ (8 * bytes.length) * 2 ^ 8 := by
      rw [← Nat.pow_add, List.length_cons, Nat.mul_succ]
    refine ⟨2 ^ (8 * bytes.length) * byte.toNat + low, ?_, ?_⟩
    . rw [hpow]
      calc
        2 ^ (8 * bytes.length) * byte.toNat + low
          < 2 ^ (8 * bytes.length) * byte.toNat + 2 ^ (8 * bytes.length) := by omega
        _ = 2 ^ (8 * bytes.length) * (byte.toNat + 1) := by rw [Nat.mul_succ]
        _ ≤ 2 ^ (8 * bytes.length) * 2 ^ 8 := Nat.mul_le_mul_left _ hbyte
    . rw [List.foldl_cons, hvalue, toNat_shiftIn _ _ hw, hpow, Nat.add_mod, Nat.mul_mod,
        Nat.mod_mod, ← Nat.mul_mod, ← Nat.add_mod]
      congr 1
      ring

theorem bigEndian_foldl_shiftIn (bytes : List UInt8) (acc : BitVec w) (hw : 8 ≤ w)
    (hbytes : 8 * bytes.length ≤ w)
    : bigEndian (bytes.foldl shiftIn acc) bytes.length = bytes := by
  induction bytes generalizing acc with
  | nil => rfl
  | cons byte bytes ih =>
    rw [List.length_cons, Nat.mul_succ] at hbytes
    have hhead : UInt8.ofBitVec ((((bytes.foldl shiftIn (shiftIn acc byte))
        >>> (8 * bytes.length)) &&& 0xFF#w).setWidth 8) = byte := by
      obtain ⟨low, hlow, hvalue⟩ := exists_toNat_foldl_shiftIn bytes (shiftIn acc byte) hw
      have hw' : 2 ^ w = 2 ^ (8 * bytes.length) * (2 ^ 8 * 2 ^ (w - 8 * bytes.length - 8)) := by
        rw [← Nat.pow_add, ← Nat.pow_add]
        congr 1
        omega
      have hw'' : 2 ^ w = 2 ^ 8 * 2 ^ (w - 8) := by
        rw [← Nat.pow_add]
        congr 1
        omega
      rw [← UInt8.toNat_inj, toNat_byte _ _ hw, hvalue, hw', Nat.mod_mul_right_div_self,
        Nat.mod_mul_right_mod, Nat.mul_add_div (Nat.two_pow_pos _), Nat.div_eq_of_lt hlow,
        Nat.add_zero, toNat_shiftIn _ _ hw, hw'', Nat.mod_mul_right_mod, Nat.mul_comm,
        Nat.mul_add_mod]
      exact Nat.mod_eq_of_lt byte.toNat_lt
    rw [List.foldl_cons, List.length_cons, bigEndian, hhead, ih _ (by omega)]

end BigEndian

structure Cursor where
  bytes : List UInt8
  pos : Nat

def Cursor.rest (c : Cursor) : List UInt8 :=
  c.bytes.drop c.pos

abbrev CursorM (ε : Type) := StateT Cursor (Except ε)

namespace CursorM

variable {ε α β : Type}

def require (size : Nat) (short : ε) : CursorM ε Unit :=
  fun c => if c.bytes.length - c.pos < size then .error short else .ok ((), c)

def next (outside : ε) : CursorM ε UInt8 :=
  fun c =>
    match c.bytes[c.pos]? with
    | some byte => .ok (byte, { c with pos := c.pos + 1 })
    | none => .error outside

def nextWord {w : Nat} (outside : ε) : Nat → BitVec w → CursorM ε (BitVec w)
  | 0, acc => pure acc
  | count + 1, acc => do
    let byte ← next outside
    nextWord outside count (shiftIn acc byte)

def nextBytes (outside : ε) (size : Nat) : CursorM ε (List UInt8) :=
  fun c =>
    if c.pos + size ≤ c.bytes.length then
      .ok ((c.bytes.drop c.pos).take size, { c with pos := c.pos + size })
    else
      .error outside

def finish (trailing : ε) : CursorM ε Unit :=
  fun c => if c.pos = c.bytes.length then .ok ((), c) else .error trailing

section

variable {p : CursorM ε α} {f : α → CursorM ε β}

theorem bind_ok (h : p c = .ok (a, c')) : (p >>= f) c = f a c' := by
  show (p c >>= fun (a, c) => f a c) = _
  rw [h]
  rfl

theorem bind_error (h : p c = .error e) : (p >>= f) c = .error e := by
  show (p c >>= fun (a, c) => f a c) = _
  rw [h]
  rfl

theorem bind_eq_ok (h : (p >>= f) c = .ok (b, c'))
    : ∃ a c₁, p c = .ok (a, c₁) ∧ f a c₁ = .ok (b, c') := by
  generalize hres : p c = res
  cases res with
  | error e =>
    rw [bind_error hres] at h
    contradiction
  | ok res =>
    rw [bind_ok hres] at h
    exact ⟨res.1, res.2, rfl, h⟩

end

/--
A parser and the code that it inverts. Values of `σ` are stored, and a closed parser reads to the
end of the bytes.
-/
structure Codec {σ : Type} (refused : ε → Prop) (closed : Prop) (valid : σ → Prop)
    (code : σ → List UInt8) (value : σ → α) (p : CursorM ε α) : Prop where
  reads : ∀ x, valid x → ∀ front rest, (closed → rest = []) →
    p ⟨front ++ (code x ++ rest), front.length⟩
      = .ok (value x, ⟨front ++ (code x ++ rest), front.length + (code x).length⟩)
  short : ∀ x, valid x → ∀ front k, k < (code x).length →
    ∃ e, p ⟨front ++ (code x).take k, front.length⟩ = .error e
  ok : ∀ c a c', c.pos ≤ c.bytes.length → p c = .ok (a, c') →
    c'.bytes = c.bytes ∧ c'.pos ≤ c.bytes.length ∧
      ∃ x, valid x ∧ value x = a ∧ c.rest = code x ++ c'.rest ∧ (closed → c'.rest = [])
  error : ∀ c e, c.pos ≤ c.bytes.length → p c = .error e → refused e

theorem nextWord_ok (count : Nat) (acc : BitVec w) (c : Cursor) (h : c.pos + count ≤ c.bytes.length)
    : nextWord outside count acc c
        = .ok ((c.rest.take count).foldl shiftIn acc, { c with pos := c.pos + count }) := by
  induction count generalizing acc c with
  | zero => rfl
  | succ count ih =>
    have hlt : c.pos < c.bytes.length := by omega
    have hnext : next outside c = .ok (c.bytes[c.pos], { c with pos := c.pos + 1 }) := by
      simp [next, List.getElem?_eq_getElem hlt]
    unfold nextWord
    rw [bind_ok hnext, ih]
    . rw [Cursor.rest, Cursor.rest, List.drop_eq_getElem_cons hlt, List.take_succ_cons,
        List.foldl_cons]
      simp only [Nat.add_assoc, Nat.add_comm 1]
    . simp only
      omega

namespace Codec

variable {σ τ : Type} {refused : ε → Prop} {closed : Prop} {valid : σ → Prop}
  {code : σ → List UInt8}

theorem long {value : σ → α} (h : Codec refused True valid code value p) (hx : valid x)
    (front : List UInt8) (hrest : rest ≠ [])
    : ∃ e, p ⟨front ++ (code x ++ rest), front.length⟩ = .error e := by
  generalize hres : p ⟨front ++ (code x ++ rest), front.length⟩ = res
  cases res with
  | error e => exact ⟨e, rfl⟩
  | ok res =>
    -- What is accepted is the code of another value, of which the code of `x` is too short.
    obtain ⟨_, _, y, hy, _, hcode, hend⟩ := h.ok _ res.1 res.2 (by simp) hres
    rw [Cursor.rest, List.drop_left, hend trivial, List.append_nil] at hcode
    have hlt : (code x).length < (code y).length := by
      rw [← hcode, List.length_append]
      exact Nat.lt_add_of_pos_right (List.length_pos_iff.mpr hrest)
    obtain ⟨e, he⟩ := h.short y hy front _ hlt
    have hread := h.reads x hx front [] (fun _ => rfl)
    rw [← hcode, List.take_left] at he
    rw [List.append_nil, he] at hread
    contradiction

theorem require {value : σ → α} {p : Unit → CursorM ε α} {size : Nat} {shortage : ε}
    (decode : List UInt8 → α) (he : refused shortage)
    (hp : ∀ c : Cursor, c.pos + size ≤ c.bytes.length →
      p () c = .ok (decode (c.rest.take size), { c with pos := c.pos + size }))
    (hcode : ∀ x, valid x → (code x).length = size ∧ decode (code x) = value x)
    (honto : ∀ bytes, bytes.length = size → ∃ x, valid x ∧ code x = bytes)
    : Codec refused False valid code value (CursorM.require size shortage >>= p) where
  reads := by
    intro x hx front rest _
    obtain ⟨hlength, hdecode⟩ := hcode x hx
    have hok : CursorM.require size shortage ⟨front ++ (code x ++ rest), front.length⟩
        = .ok ((), ⟨front ++ (code x ++ rest), front.length⟩) := by
      simp [CursorM.require, hlength]
    rw [bind_ok hok, hp _ (by simp [hlength]), Cursor.rest, List.drop_left,
      List.take_left' hlength, hdecode, hlength]
  short := by
    intro x hx front k hk
    refine ⟨shortage, bind_error ?_⟩
    rw [(hcode x hx).1] at hk
    simp [CursorM.require, (hcode x hx).1, hk]
  ok := by
    intro c a c' hc h
    obtain ⟨_, c₁, hrequire, h⟩ := bind_eq_ok h
    simp only [CursorM.require] at hrequire
    split at hrequire
    . contradiction
    . cases hrequire
      have hsize : c.pos + size ≤ c.bytes.length := by omega
      obtain ⟨x, hx, hbytes⟩ := honto (c.rest.take size) (by
        simp only [Cursor.rest, List.length_take, List.length_drop]
        omega)
      rw [hp c hsize] at h
      cases h
      refine ⟨rfl, hsize, x, hx, ?_, ?_, False.elim⟩
      . rw [← hbytes, (hcode x hx).2]
      . rw [hbytes, Cursor.rest, Cursor.rest, ← List.drop_drop]
        exact (List.take_append_drop _ _).symm
  error := by
    intro c e hc h
    by_cases hshort : c.bytes.length - c.pos < size
    . rw [bind_error (if_pos hshort)] at h
      cases h
      exact he
    . rw [bind_ok (if_neg hshort), hp c (by omega)] at h
      contradiction

theorem next (he : refused shortage)
    : Codec refused False (fun _ => True) (fun byte => [byte]) id
        (CursorM.require 1 shortage >>= fun _ => CursorM.next outside) := by
  apply require (fun bytes => bytes.headD 0) he
  . intro c hc
    have hlt : c.pos < c.bytes.length := by omega
    rw [CursorM.next, Cursor.rest, List.drop_eq_getElem_cons hlt, List.getElem?_eq_getElem hlt]
    rfl
  . simp
  . intro bytes hlength
    obtain ⟨byte, rfl⟩ := List.length_eq_one_iff.mp hlength
    exact ⟨byte, trivial, rfl⟩

theorem nextWord {f : BitVec w → σ} {word : σ → BitVec w} (hf : ∀ value, word (f value) = value)
    (hword : ∀ x, f (word x) = x) (hw : 8 ≤ w) (hcount : w = 8 * count) (he : refused shortage)
    : Codec refused False (fun _ => True) (fun x => bigEndian (word x) count) id
        (CursorM.require count shortage >>= fun _ =>
          CursorM.nextWord outside count 0#w >>= fun value => Pure.pure (f value)) := by
  apply require (fun bytes => f (bytes.foldl shiftIn 0#w)) he
  . intro c hc
    rw [bind_ok (nextWord_ok _ _ _ hc)]
    rfl
  . intro x _
    rw [length_bigEndian, foldl_bigEndian _ _ hw hcount, hword]
    exact ⟨rfl, rfl⟩
  . intro bytes hlength
    refine ⟨f (bytes.foldl shiftIn 0#w), trivial, ?_⟩
    rw [hf, ← hlength, bigEndian_foldl_shiftIn _ _ hw (by omega)]

theorem nextBytes (he : refused shortage)
    : Codec refused False (fun bytes => bytes.length = size) id id
        (CursorM.require size shortage >>= fun _ => CursorM.nextBytes outside size) := by
  apply require id he
  . intro c hc
    exact if_pos hc
  . intro bytes hlength
    exact ⟨hlength, rfl⟩
  . intro bytes hlength
    exact ⟨bytes, hlength, rfl⟩

variable {V : τ → Prop} {code' : τ → List UInt8} {value : τ → β}

theorem guard {e : ε} {cond : Prop} [Decidable cond] {p : CursorM ε β} (he : refused e)
    (hvalid : ∀ y, V y → ¬cond) (hp : ¬cond → Codec refused closed V code' value p)
    : Codec refused closed V code' value (if cond then throw e else p) := by
  by_cases hcond : cond
  . rw [if_pos hcond]
    constructor
    . exact fun y hy => absurd hcond (hvalid y hy)
    . exact fun y hy => absurd hcond (hvalid y hy)
    . intro c a c' _ h
      contradiction
    . intro c e' _ h
      cases h
      exact he
  . rw [if_neg hcond]
    exact hp hcond

theorem pure (y : τ) (hV : ∀ y', V y' ↔ y' = y)
    : Codec refused False V (fun _ => []) value (Pure.pure (value y) : CursorM ε β) where
  reads := by
    intro y' hy' front rest _
    rw [(hV y').mp hy']
    rfl
  short := by
    intro y' _ front k hk
    contradiction
  ok := by
    intro c b c' hc h
    cases h
    exact ⟨rfl, hc, y, (hV y).mpr rfl, rfl, rfl, False.elim⟩
  error := by
    intro c e _ h
    contradiction

theorem finish (he : refused trailing) (y : τ) (hV : ∀ y', V y' ↔ y' = y)
    : Codec refused True V (fun _ => []) value
        (CursorM.finish trailing >>= fun _ => Pure.pure (value y)) where
  reads := by
    intro y' hy' front rest hrest
    rw [hrest trivial, bind_ok (if_pos (by simp)), (hV y').mp hy']
    rfl
  short := by
    intro y' _ front k hk
    contradiction
  ok := by
    intro c b c' hc h
    obtain ⟨_, c₁, hfinish, h⟩ := bind_eq_ok h
    simp only [CursorM.finish] at hfinish
    split at hfinish
    . next hend =>
      cases hfinish
      cases h
      have hnil : c.rest = [] := by rw [Cursor.rest, hend, List.drop_length]
      exact ⟨rfl, hc, y, (hV y).mpr rfl, rfl, rfl, fun _ => hnil⟩
    . contradiction
  error := by
    intro c e _ h
    by_cases hend : c.pos = c.bytes.length
    . rw [bind_ok (if_pos hend)] at h
      contradiction
    . rw [bind_error (if_neg hend)] at h
      cases h
      exact he

theorem bind {f : σ → CursorM ε β} (field : τ → σ) (hp : Codec refused False valid code id p)
    (hV : ∀ y, V y → valid (field y))
    (hf : ∀ x, valid x → Codec refused closed (fun y => field y = x ∧ V y) code' value (f x))
    : Codec refused closed V (fun y => code (field y) ++ code' y) value (p >>= f) where
  reads := by
    intro y hy front rest hrest
    have hread := (hf _ (hV y hy)).reads y ⟨rfl, hy⟩ (front ++ code (field y)) rest hrest
    rw [List.append_assoc (code _), bind_ok (hp.reads _ (hV y hy) front _ False.elim)]
    simp only [List.append_assoc, List.length_append, Nat.add_assoc] at hread ⊢
    exact hread
  short := by
    intro y hy front k hk
    by_cases hfirst : k < (code (field y)).length
    . obtain ⟨e, herror⟩ := hp.short _ (hV y hy) front k hfirst
      refine ⟨e, ?_⟩
      rw [List.take_append_of_le_length (by omega)]
      exact bind_error herror
    . obtain ⟨e, herror⟩ := (hf _ (hV y hy)).short y ⟨rfl, hy⟩ (front ++ code (field y))
        (k - (code (field y)).length) (by
          rw [List.length_append] at hk
          omega)
      refine ⟨e, ?_⟩
      rw [List.take_append, List.take_of_length_le (by omega),
        bind_ok (hp.reads _ (hV y hy) front _ False.elim)]
      rw [List.append_assoc, List.length_append] at herror
      exact herror
  ok := by
    intro c b c' hc h
    obtain ⟨a, c₁, hfirst, h⟩ := bind_eq_ok h
    obtain ⟨hbytes, hpos, x, hx, rfl, hrest, _⟩ := hp.ok c a c₁ hc hfirst
    rw [← hbytes] at hpos ⊢
    obtain ⟨hbytes', hpos', y, ⟨hfield, hy⟩, hvalue, hrest', hend⟩ := (hf x hx).ok c₁ b c' hpos h
    refine ⟨hbytes', hpos', y, hy, hvalue, ?_, hend⟩
    rw [hrest, hrest', hfield, List.append_assoc]
  error := by
    intro c e hc h
    generalize hres : p c = res
    cases res with
    | error e' =>
      rw [bind_error hres] at h
      cases h
      exact hp.error c e hc hres
    | ok res =>
      rw [bind_ok hres] at h
      obtain ⟨hbytes, hpos, x, hx, hvalue, _⟩ := hp.ok c res.1 res.2 hc hres
      rw [← hbytes] at hpos
      rw [← hvalue] at h
      exact (hf x hx).error res.2 e hpos h

end Codec
end CursorM

theorem List.append_lt_append_iff {α : Type} [LT α] {first first' rest rest' : List α}
    (hlength : first.length = first'.length)
    : first ++ rest < first' ++ rest' ↔ first < first' ∨ first = first' ∧ rest < rest' := by
  induction first generalizing first' with
  | nil =>
    have hnil : first' = [] := List.eq_nil_of_length_eq_zero hlength.symm
    simp [hnil]
  | cons a first ih =>
    cases first' with
    | nil => contradiction
    | cons b first' =>
      have hlength : first.length = first'.length := by simpa using hlength
      rw [List.cons_append, List.cons_append, List.cons_lt_cons_iff, List.cons_lt_cons_iff,
        ih hlength, List.cons.injEq]
      tauto

section BigEndian

variable {w : Nat}

theorem Nat.add_mul_lt_add_mul_iff {unit low low' high high' : Nat} (hlow : low < unit)
    (hlow' : low' < unit)
    : low + unit * high < low' + unit * high' ↔ high < high' ∨ high = high' ∧ low < low' := by
  have hmul {m n : Nat} (h : m < n) : unit * m + unit ≤ unit * n := by
    rw [← Nat.mul_succ]
    exact Nat.mul_le_mul_left unit h
  cases Nat.lt_trichotomy high high' with
  | inl hlt =>
    have hdigits := hmul hlt
    simp only [hlt, true_or, iff_true]
    omega
  | inr h =>
    cases h with
    | inl heq =>
      rw [heq]
      omega
    | inr hgt =>
      have hdigits := hmul hgt
      constructor
      . omega
      . omega

section

variable (value value' : BitVec w) (count : Nat) (hw : 8 ≤ w)

include hw

theorem bigEndian_lt_iff
    : bigEndian value count < bigEndian value' count
      ↔ value.toNat % 2 ^ (8 * count) < value'.toNat % 2 ^ (8 * count) := by
  induction count with
  | zero => simp [bigEndian, Nat.mod_one]
  | succ count ih =>
    have hsplit (n : Nat) : n % 2 ^ (8 * (count + 1))
        = n % 2 ^ (8 * count) + 2 ^ (8 * count) * (n / 2 ^ (8 * count) % 2 ^ 8) := by
      rw [show 8 * (count + 1) = 8 * count + 8 by omega, Nat.pow_add, Nat.mod_mul]
    have hlow (n : Nat) : n % 2 ^ (8 * count) < 2 ^ (8 * count) := by
      apply Nat.mod_lt
      apply Nat.two_pow_pos
    unfold bigEndian
    rw [List.cons_lt_cons_iff, ih, UInt8.lt_iff_toNat_lt, ← UInt8.toNat_inj, toNat_byte _ _ hw,
      toNat_byte _ _ hw, hsplit value.toNat, hsplit value'.toNat]
    symm
    apply Nat.add_mul_lt_add_mul_iff
    . exact hlow value.toNat
    . exact hlow value'.toNat

theorem bigEndian_lt_iff_lt (hcount : w = 8 * count)
    : bigEndian value count < bigEndian value' count ↔ value < value' := by
  rw [bigEndian_lt_iff _ _ _ hw, ← hcount, Nat.mod_eq_of_lt value.isLt,
    Nat.mod_eq_of_lt value'.isLt, BitVec.lt_def]

theorem bigEndian_inj (hcount : w = 8 * count)
    : bigEndian value count = bigEndian value' count ↔ value = value' := by
  constructor
  . intro h
    rw [← foldl_bigEndian value count hw hcount, h, foldl_bigEndian value' count hw hcount]
  . intro h
    rw [h]

end

end BigEndian

theorem Nat.xor_two_pow_of_lt (h : x < 2 ^ n) : x ^^^ 2 ^ n = 2 ^ n + x := by
  apply Nat.eq_of_testBit_eq
  intro i
  rw [Nat.testBit_xor, Nat.testBit_two_pow]
  by_cases hlt : i < n
  . rw [Nat.testBit_two_pow_add_gt hlt]
    simp [show n ≠ i by omega]
  . by_cases heq : i = n
    . rw [heq, Nat.testBit_two_pow_add_eq]
      simp
    . have hpow : 2 ^ (n + 1) ≤ 2 ^ i := Nat.pow_le_pow_right (by decide) (by omega)
      rw [Nat.pow_succ] at hpow
      rw [Nat.testBit_lt_two_pow (show x < 2 ^ i by omega),
        Nat.testBit_lt_two_pow (show 2 ^ n + x < 2 ^ i by omega)]
      simp [show n ≠ i by omega]

theorem Nat.xor_two_pow_of_le (hle : 2 ^ n ≤ x) (hlt : x < 2 ^ (n + 1))
    : x ^^^ 2 ^ n = x - 2 ^ n := by
  rw [Nat.pow_succ] at hlt
  have hxor : (x - 2 ^ n) ^^^ 2 ^ n = x := by
    rw [Nat.xor_two_pow_of_lt (by omega)]
    omega
  calc
    x ^^^ 2 ^ n = ((x - 2 ^ n) ^^^ 2 ^ n) ^^^ 2 ^ n := by rw [hxor]
    _ = x - 2 ^ n := by rw [Nat.xor_assoc, Nat.xor_self, Nat.xor_zero]

theorem Int64.flip_lt_flip_iff (x y : Int64)
    : (x.toUInt64 ^^^ 0x8000000000000000) < (y.toUInt64 ^^^ 0x8000000000000000) ↔ x < y := by
  have hflip (z : Int64)
      : ((z.toUInt64 ^^^ 0x8000000000000000).toNat : Int) = z.toInt + 2 ^ 63 := by
    have hbits : z.toInt = z.toUInt64.toBitVec.toInt := rfl
    have hlt := z.toUInt64.toNat_lt
    rw [UInt64.toNat_xor, show (0x8000000000000000 : UInt64).toNat = 2 ^ 63 from rfl, hbits,
      BitVec.toInt_eq_toNat_cond, UInt64.toNat_toBitVec]
    split
    . rw [Nat.xor_two_pow_of_lt (by omega)]
      omega
    . rw [Nat.xor_two_pow_of_le (by omega) (by omega)]
      omega
  have hx := hflip x
  have hy := hflip y
  rw [UInt64.lt_iff_toNat_lt, Int64.lt_iff_toInt_lt]
  omega
