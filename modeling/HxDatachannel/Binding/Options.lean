import HxDatachannel.Binding.Reliability
import HxDatachannel.Negotiation.Defs

/-!
# `Binding.Options` — what the two backends ask for with the same options

`createDatachannelWithOptions` turns two optional limits into a request to the stack below it: under HL
through the flags of the C API, under JS through the dictionary of the browser. `null`, 0 and a positive
value mean different things on the two paths. `options_alike` says for which pairs of limits the request is
the same.
-/

namespace HxDatachannel

open Negotiation (RTCDataChannelInit initOf)

/-- The reliability that a stack is asked for. -/
inductive EffectiveReliability where
  | reliable
  | retransmits (limit : Int)
  | lifetime (limit : Int)
deriving DecidableEq, Repr

/-- What a stack is asked for. -/
structure Request where
  ordered     : Bool
  reliability : EffectiveReliability
deriving DecidableEq, Repr

/-- The request that makes a native channel with this reliability; its limits are unsigned. -/
def Reliability.request (r : Reliability) : Request :=
  { ordered := !r.unordered
    reliability :=
      match r.maxPacketLifeTime, r.maxRetransmits with
      | some l, _    => .lifetime l.toNat
      | none, some n => .retransmits n.toNat
      | none, none   => .reliable }

/-- The browser's `createDataChannel`: it throws (`none`) when both limits are given a value, and
    `undefined` counts as absent. -/
def createDataChannel (init : RTCDataChannelInit) : Option Request :=
  match init.maxRetransmits, init.maxPacketLifeTime with
  | some _, some _ => none
  | some n, none   => some ⟨init.ordered, .retransmits n⟩
  | none, some l   => some ⟨init.ordered, .lifetime l⟩
  | none, none     => some ⟨init.ordered, .reliable⟩

/-- `createDatachannelWithOptions` of the HL backend. Nothing in it fails on account of its options. -/
def requestHL (unordered : Bool) (maxRetransmits maxLifetime : Option Int32Bits) : Option Request :=
  some (createDatachannelWithOptions unordered maxRetransmits maxLifetime).1.request

/-- `createDatachannelWithOptions` of the JS backend. -/
def requestJS (unordered : Bool) (maxRetransmits maxLifetime : Option Int32Bits) : Option Request :=
  createDataChannel (initOf unordered (maxRetransmits.map BitVec.toInt) (maxLifetime.map BitVec.toInt))

/-! ## The two requests -/

/-- What the flags of the C API ask for: the lifetime if it is not 0, else the retransmit limit if that is
    not 0. -/
theorem request_create (unordered : Bool) (r l : Int32Bits) :
    (rtcCreateDataChannelEx (create_datachannel_ex unordered r l)).request =
      ⟨!unordered,
        if l ≠ 0 then .lifetime l.toNat else if r ≠ 0 then .retransmits r.toNat else .reliable⟩ := by
  rw [rtcCreateDataChannelEx_eq]
  by_cases hl : l = 0#32
  · by_cases hr : r = 0#32
    · simp [Reliability.request, hl, hr]
    · simp [Reliability.request, hl, hr]
  · simp [Reliability.request, hl]

/-- **The HL request.** `null` and 0 are the same. -/
theorem requestHL_eq (unordered : Bool) (maxRetransmits maxLifetime : Option Int32Bits) :
    requestHL unordered maxRetransmits maxLifetime =
      some ⟨!unordered,
        if maxLifetime.getD 0 ≠ 0 then .lifetime (maxLifetime.getD 0).toNat
        else if maxRetransmits.getD 0 ≠ 0 then .retransmits (maxRetransmits.getD 0).toNat
        else .reliable⟩ :=
  congrArg some (request_create unordered (maxRetransmits.getD 0) (maxLifetime.getD 0))

/-- **The JS request.** Two limits that are both 0 are left out; a limit of 0 alone is not, and two limits
    that are not both 0 make the browser throw. -/
theorem requestJS_eq (unordered : Bool) (maxRetransmits maxLifetime : Option Int32Bits) :
    requestJS unordered maxRetransmits maxLifetime =
      match maxRetransmits, maxLifetime with
      | some r, some l => if r = 0 ∧ l = 0 then some ⟨!unordered, .reliable⟩ else none
      | some r, none   => some ⟨!unordered, .retransmits r.toInt⟩
      | none, some l   => some ⟨!unordered, .lifetime l.toInt⟩
      | none, none     => some ⟨!unordered, .reliable⟩ := by
  have hzero : ∀ v : Int32Bits, v.toInt = 0 ↔ v = 0 := fun v =>
    ⟨fun h => BitVec.eq_of_toInt_eq (h.trans BitVec.toInt_zero.symm), fun h => h ▸ BitVec.toInt_zero⟩
  rw [requestJS]
  cases maxRetransmits with
  | none => cases maxLifetime <;> simp [initOf, createDataChannel]
  | some r =>
      cases maxLifetime with
      | none => simp [initOf, createDataChannel]
      | some l =>
          by_cases hrl : r = 0 ∧ l = 0
          · obtain ⟨rfl, rfl⟩ := hrl
            simp [initOf, createDataChannel]
          · simp only [if_neg hrl]
            simp only [initOf, Option.map_some, Option.some.injEq, hzero, if_neg hrl, createDataChannel]

/-- Of a limit that is not negative both backends read the same number. -/
theorem toNat_of_nonneg {v : Int32Bits} (h : 0 ≤ v.toInt) : (v.toNat : Int) = v.toInt := by
  rw [BitVec.toInt_eq_toNat_cond] at h ⊢
  have hlt := v.isLt
  split at h <;> omega

end HxDatachannel
