import HxDatachannel.Base.Transducer
import HxDatachannel.Binding.Text

/-!
# `Connection.Remote` — the remote description, in Haxe and in the native connection

`setRemoteDescription` of the HL wrapper hands a description to the native library and keeps a copy of it, by
which `addRemoteCandidate` decides whether a candidate can be added. The C function between the two drops the
result of the library. `remote_mirrored` says in which runs the copy is what the library has accepted.
-/

namespace HxDatachannel.Remote

open Transducer

/-! ## The native library -/

/-- What the library returns, from a state in which everything that happened before is kept. -/
structure Library (σ ι : Type) where
  setRemoteDescription : σ → Bytes → Bytes → Int × σ
  addRemoteCandidate   : σ → Bytes → Int × σ
  /-- All other things that happen to the connection. -/
  event                : σ → ι → σ

/-- A native connection, with the description and the type that it accepted last. -/
structure PeerConnection (σ : Type) where
  state             : σ
  remoteDescription : Option (Bytes × Bytes)

variable {σ ι : Type} (lib : Library σ ι)

/-- A negative code says that the description was rejected and the one before it is kept. -/
def rtcSetRemoteDescription (pc : PeerConnection σ) (sdp type : Bytes) : Int × PeerConnection σ :=
  let result := lib.setRemoteDescription pc.state (cstring sdp) type
  (result.1,
    { state := result.2
      remoteDescription := if result.1 < 0 then pc.remoteDescription else some (cstring sdp, type) })

def rtcAddRemoteCandidate (pc : PeerConnection σ) (cand : Bytes) : Int × PeerConnection σ :=
  let result := lib.addRemoteCandidate pc.state (cstring cand)
  (result.1, { pc with state := result.2 })

/-! ## The binding -/

/-- `set_remote_description`. Neither result is looked at. -/
def set_remote_description (pc : PeerConnection σ) (desc : Bytes) (type : String) : PeerConnection σ :=
  let typestr := cstring (utf8 type)
  let pc := if typestr = utf8 "offer" then (rtcSetRemoteDescription lib pc desc (utf8 "offer")).2 else pc
  if typestr = utf8 "answer" then (rtcSetRemoteDescription lib pc desc (utf8 "answer")).2 else pc

def add_remote_candidate (pc : PeerConnection σ) (candidate : Bytes) : PeerConnection σ :=
  (rtcAddRemoteCandidate lib pc candidate).2

/-- The HL wrapper; `none` is `null`. -/
structure RTCPeerConnection (σ : Type) where
  inner                 : PeerConnection σ
  remoteDescription     : Option String
  remoteDescriptionType : Option String

def RTCPeerConnection.new (state : σ) : RTCPeerConnection σ :=
  { inner := ⟨state, none⟩, remoteDescription := none, remoteDescriptionType := none }

inductive Act (ι : Type) where
  | setRemoteDescription (sdp type : String)
  | addRemoteCandidate (candidate : String)
  | event (e : ι)

/-- One call, or something else that happens; with the message of the exception that is thrown. -/
def step (p : RTCPeerConnection σ) : Act ι → RTCPeerConnection σ × List String
  | .setRemoteDescription sdp type =>
      ({ inner := set_remote_description lib p.inner (utf8 sdp) type, remoteDescription := some sdp,
         remoteDescriptionType := some type }, [])
  | .addRemoteCandidate candidate =>
      if p.remoteDescription = none then (p, ["No remote description set!"])
      else ({ p with inner := add_remote_candidate lib p.inner (utf8 candidate) }, [])
  | .event e => ({ p with inner := { p.inner with state := lib.event p.inner.state e } }, [])

/-! ## What is expected of a call -/

/-- The wrapper holds what the native connection accepted last, and nothing if that is nothing. -/
def Mirrored (p : RTCPeerConnection σ) : Prop :=
  p.remoteDescription.map utf8 = p.inner.remoteDescription.map Prod.fst ∧
  p.remoteDescriptionType.map utf8 = p.inner.remoteDescription.map Prod.snd

/-- The library gets this description, and accepts it. -/
def Accepts (p : RTCPeerConnection σ) (sdp type : String) : Prop :=
  (cstring (utf8 type) = utf8 "offer" ∨ cstring (utf8 type) = utf8 "answer") ∧
  0 ≤ (lib.setRemoteDescription p.inner.state (cstring (utf8 sdp)) (cstring (utf8 type))).1

/-- What is expected of one step: afterwards the wrapper mirrors the native connection, a description that is
    not accepted is reported and leaves the wrapper as it was, and a candidate is turned away iff there is no
    native description. -/
def Expected (p : RTCPeerConnection σ) (a : Act ι) : Prop :=
  Mirrored (step lib p a).1 ∧
  match a with
  | .setRemoteDescription sdp type => ¬Accepts lib p sdp type → (step lib p a).2 ≠ [] ∧
      (step lib p a).1.remoteDescription = p.remoteDescription ∧
      (step lib p a).1.remoteDescriptionType = p.remoteDescriptionType
  | .addRemoteCandidate _ => (step lib p a).2 = [] ↔ p.inner.remoteDescription ≠ none
  | .event _ => True

/-- A description that the library accepts, given as an offer or an answer and without NUL characters. -/
def Good (p : RTCPeerConnection σ) : Act ι → Prop
  | .setRemoteDescription sdp type => (type = "offer" ∨ type = "answer") ∧ 0 ∉ utf8 sdp ∧
      0 ≤ (lib.setRemoteDescription p.inner.state (utf8 sdp) (utf8 type)).1
  | _ => True

/-! ## Which runs meet it -/

theorem utf8_offer_ne_answer : utf8 "offer" ≠ utf8 "answer" := fun h =>
  absurd (utf8_injective h) (by decide)

theorem cstring_offer : cstring (utf8 "offer") = utf8 "offer" :=
  cstring_eq_self.mpr fun h => absurd ((zero_mem_utf8 "offer").mp h) (by simp)

theorem cstring_answer : cstring (utf8 "answer") = utf8 "answer" :=
  cstring_eq_self.mpr fun h => absurd ((zero_mem_utf8 "answer").mp h) (by simp)

/-- The C function hands on an offer or an answer, and nothing else. -/
theorem set_remote_description_eq (pc : PeerConnection σ) (desc : Bytes) (type : String) :
    set_remote_description lib pc desc type =
      if cstring (utf8 type) = utf8 "offer" ∨ cstring (utf8 type) = utf8 "answer" then
        (rtcSetRemoteDescription lib pc desc (cstring (utf8 type))).2
      else pc := by
  unfold set_remote_description
  by_cases hoffer : cstring (utf8 type) = utf8 "offer"
  · simp only [hoffer, if_true, true_or, if_neg utf8_offer_ne_answer]
  · by_cases hanswer : cstring (utf8 type) = utf8 "answer"
    · simp only [hanswer, if_neg utf8_offer_ne_answer.symm, if_true, or_true]
    · simp only [hoffer, hanswer, or_self, if_false]

theorem step_accepted {p : RTCPeerConnection σ} {sdp type : String} (h : Accepts lib p sdp type) :
    (step lib p (.setRemoteDescription sdp type)).1.inner.remoteDescription =
      some (cstring (utf8 sdp), cstring (utf8 type)) := by
  show (set_remote_description lib p.inner (utf8 sdp) type).remoteDescription = _
  rw [set_remote_description_eq, if_pos h.1]
  exact if_neg (Int.not_lt.mpr h.2)

/-- A description that is accepted is mirrored iff nothing of it was cut off. -/
theorem mirrored_accepted {p : RTCPeerConnection σ} {sdp type : String} (h : Accepts lib p sdp type) :
    Mirrored (step lib p (.setRemoteDescription sdp type)).1 ↔
      cstring (utf8 sdp) = utf8 sdp ∧ cstring (utf8 type) = utf8 type := by
  show some (utf8 sdp) = Option.map Prod.fst _ ∧ some (utf8 type) = Option.map Prod.snd _ ↔ _
  rw [step_accepted lib h, Option.map_some, Option.map_some, Option.some.injEq, Option.some.injEq]
  exact and_congr eq_comm eq_comm

/-- A good description is an accepted one of which nothing is cut off. -/
theorem good_iff {p : RTCPeerConnection σ} {sdp type : String} :
    Good lib p (.setRemoteDescription sdp type) ↔
      Accepts lib p sdp type ∧ cstring (utf8 sdp) = utf8 sdp ∧ cstring (utf8 type) = utf8 type := by
  constructor
  · rintro ⟨htype, hsdp, hcode⟩
    have hs := cstring_eq_self.mpr hsdp
    have ht : cstring (utf8 type) = utf8 type := by
      rcases htype with rfl | rfl
      · exact cstring_offer
      · exact cstring_answer
    refine ⟨⟨?_, ?_⟩, hs, ht⟩
    · rw [ht]
      exact htype.imp (fun h => congrArg utf8 h) fun h => congrArg utf8 h
    · rwa [hs, ht]
  · rintro ⟨⟨htype, hcode⟩, hs, ht⟩
    rw [ht] at htype
    rw [hs, ht] at hcode
    exact ⟨htype.imp (fun h => utf8_injective h) fun h => utf8_injective h, cstring_eq_self.mp hs, hcode⟩

theorem mirrored_none {p : RTCPeerConnection σ} (h : Mirrored p) :
    p.remoteDescription = none ↔ p.inner.remoteDescription = none := by
  rw [← Option.map_eq_none_iff (f := utf8), h.1, Option.map_eq_none_iff]

/-- **One step.** While the wrapper mirrors the native connection, a step is as expected iff it is good, and
    then the wrapper still does. -/
theorem expected_iff {p : RTCPeerConnection σ} (h : Mirrored p) (a : Act ι) :
    (Expected lib p a ↔ Good lib p a) ∧ (Good lib p a → Mirrored (step lib p a).1) := by
  cases a with
  | setRemoteDescription sdp type =>
      rw [good_iff]
      refine ⟨⟨?_, ?_⟩, ?_⟩
      · rintro ⟨hmirror, hreject⟩
        -- the call never throws, so the description must have been accepted
        have haccepts : Accepts lib p sdp type := by
          by_contra hnot
          exact (hreject hnot).1 rfl
        exact ⟨haccepts, (mirrored_accepted lib haccepts).mp hmirror⟩
      · rintro ⟨haccepts, hwhole⟩
        exact ⟨(mirrored_accepted lib haccepts).mpr hwhole, fun hnot => absurd haccepts hnot⟩
      · rintro ⟨haccepts, hwhole⟩
        exact (mirrored_accepted lib haccepts).mpr hwhole
  | addRemoteCandidate candidate =>
      have hmirror : Mirrored (step lib p (.addRemoteCandidate candidate)).1 := by
        unfold step
        dsimp only
        split
        · exact h
        · exact h
      refine ⟨iff_of_true ⟨hmirror, ?_⟩ trivial, fun _ => hmirror⟩
      rw [← not_iff_not, not_not, ← mirrored_none h]
      by_cases hnone : p.remoteDescription = none
      · simp [step, hnone]
      · simp [step, hnone]
  | event e => exact ⟨iff_of_true ⟨h, trivial⟩ trivial, fun _ => h⟩

/-- **When the copy is the truth.** All steps of a run from a new connection are as expected iff every
    description in it is an offer or an answer without NUL characters that the library accepts. -/
theorem remote_mirrored (state : σ) (acts : List (Act ι)) :
    Admits (step lib) (Expected lib) (.new state) acts ↔ Admits (step lib) (Good lib) (.new state) acts :=
  admits_congr (fun _ a h => expected_iff lib h a) ⟨rfl, rfl⟩

/-- **A description that is not accepted.** The library rejects an empty description; no exception is thrown,
    the wrapper holds it all the same, and a candidate for it is handed on. -/
theorem rejected_description_kept :
    let lib : Library Unit Unit :=
      { setRemoteDescription := fun s sdp _ => (if sdp = [] then -1 else 0, s)
        addRemoteCandidate := fun s _ => (0, s)
        event := fun s _ => s }
    let afterwards := step lib (.new ()) (.setRemoteDescription "" "offer")
    afterwards.2 = [] ∧ afterwards.1.remoteDescription = some "" ∧
      afterwards.1.inner.remoteDescription = none ∧
      (step lib afterwards.1 (.addRemoteCandidate "candidate")).2 = [] := by
  intro lib afterwards
  have hreject : set_remote_description lib ⟨(), none⟩ (utf8 "") "offer" = ⟨(), none⟩ := by
    rw [set_remote_description_eq, cstring_offer, if_pos (.inl rfl)]
    rfl
  exact ⟨rfl, rfl, congrArg PeerConnection.remoteDescription hreject, rfl⟩

end HxDatachannel.Remote
