import Appraisal.Citation.Record
import Appraisal.Proofs.Value.Units
import Mathlib.Logic.ExistsUnique
import Mathlib.Logic.Function.Basic

/-! What the hash tells apart. The multiplier of a hash step is odd, so a step can be undone (`bijective_hashStep`):
    different states stay different whatever follows (`foldl_hashStep_inj`), and texts whose units differ in one place
    never have the same hash (`hash_tells_changed_unit`). An id tells no less than the hash (`idOf_eq_iff`), since its
    eight hexadecimal digits are read back. -/

namespace Appraisal

/-! ### Hexadecimal digits -/

namespace Text

def isLowerHex (c : Char) : Bool := "0123456789abcdef".toList.contains c

theorem isLowerHex_hexDigit {n : Nat} (h : n < 16) : isLowerHex (hexDigit n) = true := by
  have hall : ∀ m : Fin 16, isLowerHex (hexDigit m.val) = true := by decide
  exact hall ⟨n, h⟩

theorem isLowerHex_of_mem_hex {width n : Nat} {c : Char} (hc : c ∈ hex width n) : isLowerHex c = true := by
  induction width generalizing n with
  | zero => cases hc
  | succ width ih =>
    rcases List.mem_append.1 hc with hc | hc
    · exact ih hc
    · rw [List.mem_singleton] at hc
      subst hc
      exact isLowerHex_hexDigit (Nat.mod_lt n (by decide))

end Text

namespace Citation
open Text

/-! ### Steps -/

/-- The inverse of the multiplier modulo 2 ^ 32. -/
def hashPrimeInverse : UInt32 := 0x359C449B

theorem mul_hashPrime_mul_inverse (h : UInt32) : h * hashPrime * hashPrimeInverse = h := by
  have hone : hashPrime * hashPrimeInverse = 1 := by decide
  rw [UInt32.mul_assoc, hone, UInt32.mul_one]

theorem mul_hashPrime_inj {h h' : UInt32} : h * hashPrime = h' * hashPrime ↔ h = h' := by
  have hleft : Function.LeftInverse (· * hashPrimeInverse) (· * hashPrime) := mul_hashPrime_mul_inverse
  exact hleft.injective.eq_iff

/-- The state before a step. -/
def hashUnstep (h : UInt32) (unit : UInt16) : UInt32 := h * hashPrimeInverse ^^^ unit.toUInt32

theorem hashUnstep_hashStep (h : UInt32) (unit : UInt16) : hashUnstep (hashStep h unit) unit = h := by
  rw [hashUnstep, hashStep, mul_hashPrime_mul_inverse, UInt32.xor_assoc, UInt32.xor_self, UInt32.xor_zero]

theorem hashStep_hashUnstep (h : UInt32) (unit : UInt16) : hashStep (hashUnstep h unit) unit = h := by
  rw [hashStep, hashUnstep, UInt32.xor_assoc, UInt32.xor_self, UInt32.xor_zero, UInt32.mul_assoc,
    UInt32.mul_comm hashPrimeInverse, ← UInt32.mul_assoc, mul_hashPrime_mul_inverse]

theorem bijective_hashStep (unit : UInt16) : Function.Bijective (hashStep · unit) :=
  Function.bijective_iff_has_inverse.2
    ⟨(hashUnstep · unit), (hashUnstep_hashStep · unit), (hashStep_hashUnstep · unit)⟩

theorem hashStep_inj {h h' : UInt32} {unit : UInt16} : hashStep h unit = hashStep h' unit ↔ h = h' :=
  (bijective_hashStep unit).injective.eq_iff

theorem hashStep_unit_inj {h : UInt32} {u v : UInt16} : hashStep h u = hashStep h v ↔ u = v := by
  rw [hashStep, hashStep, mul_hashPrime_inj, UInt32.xor_right_inj]
  constructor
  · intro heq
    have hnat := congrArg UInt32.toNat heq
    rw [UInt16.toNat_toUInt32, UInt16.toNat_toUInt32] at hnat
    exact UInt16.toNat.inj hnat
  · rintro rfl
    rfl

/-- A step on numbers: the unit is laid over the state bit by bit, and the product is kept in 32 bits. -/
theorem toNat_hashStep (h : UInt32) (unit : UInt16) :
    (hashStep h unit).toNat = (h.toNat ^^^ unit.toNat) * 16777619 % Nat.pow 2 32 := by
  rw [hashStep, UInt32.toNat_mul, UInt32.toNat_xor, UInt16.toNat_toUInt32]
  rfl

/-! ### Runs -/

/-- Different states stay different when the same units follow. -/
theorem foldl_hashStep_inj {h h' : UInt32} {us : List UInt16} :
    us.foldl hashStep h = us.foldl hashStep h' ↔ h = h' := by
  induction us generalizing h h' with
  | nil => rfl
  | cons u us ih => rw [List.foldl_cons, List.foldl_cons, ih, hashStep_inj]

/-- One unit in the place of another always changes the hash. -/
theorem foldl_hashStep_ne {u v : UInt16} (huv : u ≠ v) (h : UInt32) (before after : List UInt16) :
    (before ++ u :: after).foldl hashStep h ≠ (before ++ v :: after).foldl hashStep h := by
  intro heq
  rw [List.foldl_append, List.foldl_append, List.foldl_cons, List.foldl_cons, foldl_hashStep_inj,
    hashStep_unit_inj] at heq
  exact huv heq

/-- The runs are equally long and differ in exactly one place. -/
structure OneChanged (us vs : List UInt16) : Prop where
  length : us.length = vs.length
  place : ∃! i : Nat, us[i]? ≠ vs[i]?

theorem OneChanged.exists_split {us vs : List UInt16} (h : OneChanged us vs) :
    ∃ before u v after, u ≠ v ∧ us = before ++ u :: after ∧ vs = before ++ v :: after := by
  obtain ⟨i, hi, hunique⟩ := h.place
  have hus : i < us.length := by
    by_contra hge
    rw [Nat.not_lt] at hge
    exact hi ((List.getElem?_eq_none hge).trans (List.getElem?_eq_none (h.length ▸ hge)).symm)
  have hvs : i < vs.length := h.length ▸ hus
  have hbefore : us.take i = vs.take i := by
    refine List.ext_getElem? fun j => ?_
    rw [List.getElem?_take, List.getElem?_take]
    split
    · rename_i hj
      by_contra hne
      exact Nat.ne_of_lt hj (hunique j hne)
    · rfl
  have hafter : us.drop (i + 1) = vs.drop (i + 1) := by
    refine List.ext_getElem? fun j => ?_
    rw [List.getElem?_drop, List.getElem?_drop]
    by_contra hne
    have := hunique _ hne
    omega
  rw [List.getElem?_eq_getElem hus, List.getElem?_eq_getElem hvs] at hi
  refine ⟨us.take i, us[i], vs[i], us.drop (i + 1), fun heq => hi (congrArg some heq), ?_, ?_⟩
  · rw [← List.drop_eq_getElem_cons hus, List.take_append_drop]
  · rw [hbefore, hafter, ← List.drop_eq_getElem_cons hvs, List.take_append_drop]

theorem hash_ne_of_units {a b : List Char} {before after : List UInt16} {u v : UInt16} (huv : u ≠ v)
    (ha : units a = before ++ u :: after) (hb : units b = before ++ v :: after) : hash a ≠ hash b := by
  rw [hash, hash, hashFrom, hashFrom, ha, hb]
  exact foldl_hashStep_ne huv hashBasis before after

theorem hash_ne_of_oneChanged {a b : List Char} (h : OneChanged (units a) (units b)) : hash a ≠ hash b := by
  obtain ⟨before, u, v, after, huv, ha, hb⟩ := h.exists_split
  exact hash_ne_of_units huv ha hb

/-- One character in the place of another changes the hash, where both are single units. -/
theorem hash_ne_of_one_char {c d : Char} (hc : c.toNat < 0x10000) (hd : d.toNat < 0x10000) (hcd : c ≠ d)
    (before after : List Char) : hash (before ++ c :: after) ≠ hash (before ++ d :: after) := by
  have hunits : UInt16.ofNat c.toNat ≠ UInt16.ofNat d.toNat := by
    intro heq
    have hnat := congrArg UInt16.toNat heq
    rw [UInt16.toNat_ofNat', UInt16.toNat_ofNat', Nat.mod_eq_of_lt hc, Nat.mod_eq_of_lt hd] at hnat
    exact hcd (Char.toNat_inj.1 hnat)
  have hsplit : ∀ x : Char, x.toNat < 0x10000 →
      units (before ++ x :: after) = units before ++ UInt16.ofNat x.toNat :: units after := by
    intro x hx
    rw [units_append, show units (x :: after) = charUnits x ++ units after from rfl, charUnits_of_lt hx]
    rfl
  exact hash_ne_of_units hunits (hsplit c hc) (hsplit d hd)

/-! ### Ids -/

/-- The hash of a text in hexadecimal digits, as it stands in ids. -/
def hashDigits (cs : List Char) : String := String.ofList (hex 8 (hash cs).toNat)

/-- Eight hexadecimal digits in lower case. -/
def IsHashDigits (s : String) : Prop := s.toList.length = 8 ∧ ∀ c ∈ s.toList, isLowerHex c = true

theorem isHashDigits (cs : List Char) : IsHashDigits (hashDigits cs) := by
  rw [hashDigits, IsHashDigits, String.toList_ofList]
  exact ⟨length_hex 8 _, fun c hc => isLowerHex_of_mem_hex hc⟩

theorem ofHex?_hashDigits (cs : List Char) : ofHex? (hashDigits cs).toList = some (hash cs).toNat := by
  have hlt : (hash cs).toNat < Nat.pow 16 8 := (hash cs).toNat_lt
  rw [hashDigits, String.toList_ofList, ofHex?_hex hlt]

theorem hashDigits_inj {a b : List Char} : hashDigits a = hashDigits b ↔ hash a = hash b := by
  constructor
  · intro h
    have hread := ofHex?_hashDigits a
    rw [h, ofHex?_hashDigits b] at hread
    exact UInt32.toNat.inj (Option.some.inj hread).symm
  · intro h
    rw [hashDigits, h, hashDigits]

theorem idOf_eq (head : String) (cs : List Char) : idOf head cs = head ++ hashDigits cs := rfl

/-- Ids that begin alike are equal exactly if the hashes are. -/
theorem idOf_eq_iff {head : String} {a b : List Char} : idOf head a = idOf head b ↔ hash a = hash b := by
  rw [idOf_eq, idOf_eq, String.append_right_inj, hashDigits_inj]

/-- Texts whose units differ in exactly one place have different hashes. A step of the hash is a bijection on the
    states for every unit, and a text that goes on after another goes on from its hash. Different texts have different
    units, and no unit is cut off to 16 bits. The id of a text, and of a record with this canonical text, is its
    beginning and eight hexadecimal digits from which the hash is read back. -/
theorem hash_tells_changed_unit :
    (∀ a b, OneChanged (units a) (units b) → hash a ≠ hash b) ∧
    (∀ unit, Function.Bijective (hashStep · unit)) ∧
    (∀ h unit, (hashStep h unit).toNat = (h.toNat ^^^ unit.toNat) * 16777619 % Nat.pow 2 32) ∧
    (∀ a b, hash (a ++ b) = (units b).foldl hashStep (hash a)) ∧
    Function.Injective units ∧
    (∀ cs, (units cs).map UInt16.toNat = cs.flatMap unitNumbers ∧ ∀ n ∈ cs.flatMap unitNumbers, n < Nat.pow 2 16) ∧
    ∀ head cs, ∃ digits, IsHashDigits digits ∧ ofHex? digits.toList = some (hash cs).toNat ∧
      idOf head cs = head ++ digits ∧ ∀ v : Value, v.canonical = cs → recordId head v = head ++ digits := by
  refine ⟨fun a b => hash_ne_of_oneChanged, bijective_hashStep, toNat_hashStep, fun a b => hashFrom_append _ a b,
    units_injective, fun cs => ⟨map_toNat_units cs, fun n => lt_of_mem_flatMap_unitNumbers⟩, fun head cs => ?_⟩
  refine ⟨hashDigits cs, isHashDigits cs, ofHex?_hashDigits cs, idOf_eq head cs, ?_⟩
  rintro v rfl
  exact idOf_eq head v.canonical

/-- Two characters with the same high surrogate, whose low surrogates are the only units that differ. -/
theorem hash_tells_changed_unit_surrogate :
    OneChanged (units ['a', '😀', 'b']) (units ['a', '😁', 'b']) ∧ hash ['a', '😀', 'b'] ≠ hash ['a', '😁', 'b'] := by
  have hchanged : OneChanged (units ['a', '😀', 'b']) (units ['a', '😁', 'b']) := by
    refine ⟨rfl, 2, by decide, fun i hi => ?_⟩
    match i, hi with
    | 0, hi => exact absurd rfl hi
    | 1, hi => exact absurd rfl hi
    | 2, _ => rfl
    | _ + 3, hi => exact absurd rfl hi
  exact ⟨hchanged, hash_tells_changed_unit.1 _ _ hchanged⟩

end Citation
end Appraisal
