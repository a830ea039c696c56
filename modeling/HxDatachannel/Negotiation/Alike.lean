import HxDatachannel.Negotiation.Defs

/-!
# `Negotiation.Alike` — when the two backends announce the same descriptions

Under JS one flag serves offers and answers, so a connection announces at most one description
(`emitted_js`). Under HL every accepted remote offer is answered (`answers_once`), and a connection that
has announced its first description stays silent only as long as nothing needs a new one: `Offering` and
`Answered` are the two states it can then be in, and the silence rule tells when it stays there.
`negotiations_alike` puts the two together.
-/

namespace HxDatachannel.Negotiation

open Transducer

/-! ## JS: at most one description -/

/-- The description that a call causes while the flag is down. -/
def Call.firstDescription (createDataChannel : CreateDataChannel) (call : Call) : Option SdpType :=
  if call.isRemoteOffer then some .answer
  else if call.createsInBrowser createDataChannel then some .offer
  else none

theorem creates_of_createsInBrowser {createDataChannel : CreateDataChannel} {call : Call}
    (h : call.createsInBrowser createDataChannel = true) : call.creates = true := by
  cases call with
  | createDatachannel _ => rfl
  | createDatachannelWithOptions _ _ _ _ => rfl
  | setRemoteDescription _ _ => exact absurd h (by simp [Call.createsInBrowser])

theorem not_isRemoteOffer_of_creates {call : Call} (h : call.creates = true) :
    call.isRemoteOffer = false := by
  cases call with
  | createDatachannel _ => rfl
  | createDatachannelWithOptions _ _ _ _ => rfl
  | setRemoteDescription _ _ => exact absurd h (by simp [Call.creates])

/-- A call makes a channel or sets a remote description. -/
theorem creates_or_sets (c : Call) : c.creates = true ∨ ∃ sdp type, c = .setRemoteDescription sdp type := by
  cases c with
  | createDatachannel _ => exact .inl rfl
  | createDatachannelWithOptions _ _ _ _ => exact .inl rfl
  | setRemoteDescription sdp type => exact .inr ⟨sdp, type, rfl⟩

/-- One call under JS: with the flag down, its description raises the flag. -/
theorem jsCall_eq (createDataChannel : CreateDataChannel) (call : Call) :
    jsCall createDataChannel true call = (true, []) ∧
    jsCall createDataChannel false call =
      ((call.firstDescription createDataChannel).isSome,
        (call.firstDescription createDataChannel).toList) := by
  cases call with
  | createDatachannel label =>
      cases h : createDataChannel label none <;>
        simp [jsCall, Call.firstDescription, Call.isRemoteOffer, Call.createsInBrowser, h]
  | createDatachannelWithOptions label unordered r l =>
      cases h : createDataChannel label (some (initOf unordered r l)) <;>
        simp [jsCall, Call.firstDescription, Call.isRemoteOffer, Call.createsInBrowser, h]
  | setRemoteDescription sdp type =>
      by_cases h : type = "offer" <;>
        simp [jsCall, Call.firstDescription, Call.isRemoteOffer, Call.createsInBrowser, h]

theorem emitted_js_generated (createDataChannel : CreateDataChannel) (calls : List Call) :
    emitted (jsCall createDataChannel) true calls = [] := by
  induction calls with
  | nil => rfl
  | cons c cs ih => rw [emitted_cons, (jsCall_eq createDataChannel c).1, ih]; rfl

/-- **At most one description.** Under JS only the first call that causes a description has one. -/
theorem emitted_js (createDataChannel : CreateDataChannel) (calls : List Call) :
    emitted (jsCall createDataChannel) false calls =
      (calls.findSome? (Call.firstDescription createDataChannel)).toList := by
  induction calls with
  | nil => rfl
  | cons c cs ih =>
      rw [emitted_cons, (jsCall_eq createDataChannel c).2, List.findSome?_cons]
      cases hc : c.firstDescription createDataChannel with
      | none => simpa using ih
      | some t => simpa using emitted_js_generated createDataChannel cs

/-! ## HL: what is issued -/

theorem mem_addTracks {media tracks : List Media} {t : Media} (h : t ∈ media.foldl addTrack tracks) :
    t ∈ tracks ∨ ∃ m ∈ media, t = { m with removed := true } := by
  induction media generalizing tracks with
  | nil => exact .inl h
  | cons m ms ih =>
      rcases ih h with hmem | ⟨n, hn, rfl⟩
      · rw [addTrack] at hmem
        split at hmem
        · exact .inl hmem
        · rcases List.mem_append.mp hmem with hmem | hmem
          · exact .inl hmem
          · exact .inr ⟨m, List.mem_cons_self, List.mem_singleton.mp hmem⟩
      · exact .inr ⟨n, List.mem_cons_of_mem m hn, rfl⟩

theorem addTracks_mono {media tracks : List Media} {t : Media} (h : t ∈ tracks) :
    t ∈ media.foldl addTrack tracks := by
  induction media generalizing tracks with
  | nil => exact h
  | cons m ms ih =>
      apply ih
      rw [addTrack]
      split
      · exact h
      · exact List.mem_append_left _ h

/-- Every section of audio or video has its track. -/
theorem exists_track {media tracks : List Media} {m : Media} (h : m ∈ media) :
    ∃ t ∈ media.foldl addTrack tracks, t.mid = m.mid := by
  induction media generalizing tracks with
  | nil => exact absurd h (by simp)
  | cons n ns ih =>
      rcases List.mem_cons.mp h with rfl | h
      · have hhead : ∃ t ∈ addTrack tracks m, t.mid = m.mid := by
          rw [addTrack]
          split
          · rename_i hany
            simpa using hany
          · exact ⟨{ m with removed := true }, by simp, rfl⟩
        obtain ⟨t, ht, hmid⟩ := hhead
        have hkept : t ∈ ns.foldl addTrack (addTrack tracks m) := addTracks_mono ht
        exact ⟨t, hkept, hmid⟩
      · exact ih h

theorem mediaCount_ne_zero_of_hasApplication {d : Description} (h : d.hasApplication = true) :
    d.mediaCount ≠ 0 := by
  cases ha : d.application with
  | none => exact absurd h (by simp [Description.hasApplication, ha])
  | some a => simp [Description.mediaCount, ha]

/-- A valid description has a section. -/
theorem mediaCount_ne_zero_of_valid {d : Description} (h : validateRemoteDescription d = true) :
    d.mediaCount ≠ 0 := by
  rcases Bool.or_eq_true_iff.mp h with happ | hmedia
  · exact mediaCount_ne_zero_of_hasApplication happ
  · obtain ⟨m, hm, _⟩ := List.any_eq_true.mp hmedia
    have hpos := List.length_pos_of_mem hm
    rw [Description.mediaCount]
    omega

/-- The reciprocated description has the sections of the remote one. -/
theorem reciprocated_mediaCount {pc : NativePc} {d : Description} (h : pc.remoteDescription = some d) :
    pc.reciprocated.mediaCount = d.mediaCount := by
  cases ha : d.application <;> simp [NativePc.reciprocated, h, Description.mediaCount, ha]

/-- An offer made with an own channel has an application. -/
theorem hasApplication_of_offer {pc : NativePc} (h : pc.dataChannels ≠ 0) :
    (pc.populateLocalDescription .offer).hasApplication = true := by
  simp only [NativePc.populateLocalDescription]
  split
  · simp [Description.hasApplication]
  · rename_i hcond
    simp only [h, ne_eq, not_false_eq_true, and_true, Bool.not_eq_true', Bool.not_eq_false] at hcond
    exact hcond

/-- A new offer, if any, is one offer. -/
theorem renegotiate_cases (pc : NativePc) :
    pc.renegotiate.2 = [] ∨ pc.renegotiate.2 = [.offer] := by
  rw [NativePc.renegotiate]
  split
  · rename_i h
    simp only [NativePc.issue, h.1]
    split
    · exact .inl rfl
    · exact .inr rfl
  · exact .inl rfl

/-- Nothing happens unless the stable state needs an offer. -/
theorem renegotiate_eq_self {pc : NativePc}
    (h : pc.signalingState = .Stable → pc.negotiationNeeded = false) : pc.renegotiate = (pc, []) := by
  rw [NativePc.renegotiate, if_neg]
  rintro ⟨hstable, hneeded⟩
  rw [h hstable] at hneeded
  exact absurd hneeded (by simp)

/-- In the stable state a needed offer is issued, if there is an own channel. -/
theorem renegotiate_needed {pc : NativePc} (hstable : pc.signalingState = .Stable)
    (hneeded : pc.negotiationNeeded = true) (hchannels : pc.dataChannels ≠ 0) :
    pc.renegotiate.2 = [.offer] := by
  have hcount := mediaCount_ne_zero_of_hasApplication (hasApplication_of_offer hchannels)
  rw [NativePc.renegotiate, if_pos ⟨hstable, hneeded⟩]
  simp only [NativePc.issue, hstable, if_neg hcount]

/-- The state in which the answer to a remote description has been issued. -/
def NativePc.answered (pc : NativePc) : NativePc :=
  { pc.processLocalDescription pc.reciprocated with signalingState := .Stable }

/-- **The answer.** A valid remote offer is answered, and a new offer may follow. -/
theorem setLocalAnswer_eq {pc : NativePc} {d : Description}
    (hstate : pc.signalingState = .HaveRemoteOffer) (hremote : pc.remoteDescription = some d)
    (hcount : d.mediaCount ≠ 0) :
    pc.setLocalAnswer = (pc.answered.renegotiate.1, .answer :: pc.answered.renegotiate.2) := by
  have hissue : pc.issue .answer = (pc.answered, [.answer]) := by
    have hcount' : pc.reciprocated.mediaCount ≠ 0 := by rwa [reciprocated_mediaCount hremote]
    simp only [NativePc.issue, hstate, NativePc.populateLocalDescription]
    exact if_neg hcount'
  simp [NativePc.setLocalAnswer, hissue]

/-- The connection that has taken a remote offer in and not answered it yet. -/
def NativePc.offered (pc : NativePc) (d : Description) : NativePc :=
  { (if pc.signalingState = .HaveLocalOffer then pc.rollbackLocalDescription
      else pc).processRemoteDescription d with signalingState := .HaveRemoteOffer }

/-- **Every accepted remote offer** is answered at once. -/
theorem setRemoteDescription_offer {pc : NativePc} {d : Description}
    (h : (pc.setRemoteDescription d .offer).isSome = true) :
    pc.setRemoteDescription d .offer =
      some ((pc.offered d).answered.renegotiate.1,
        .answer :: (pc.offered d).answered.renegotiate.2) := by
  by_cases hvalid : validateRemoteDescription d = true
  · have hcount := mediaCount_ne_zero_of_valid hvalid
    rw [← setLocalAnswer_eq (d := d) rfl rfl hcount]
    cases hs : pc.signalingState with
    | Stable => simp [NativePc.setRemoteDescription, hvalid, hs, NativePc.offered]
    | HaveLocalOffer => simp [NativePc.setRemoteDescription, hvalid, hs, NativePc.offered]
    | HaveRemoteOffer => exact absurd h (by simp [NativePc.setRemoteDescription, hvalid, hs])
  · exact absurd h (by simp [NativePc.setRemoteDescription, hvalid])

/-- A remote answer is accepted only while an own offer is pending. -/
theorem setRemoteDescription_answer {pc : NativePc} {d : Description}
    (h : (pc.setRemoteDescription d .answer).isSome = true) :
    pc.signalingState = .HaveLocalOffer ∧
    pc.setRemoteDescription d .answer =
      some { pc.processRemoteDescription d with signalingState := .Stable }.renegotiate := by
  by_cases hvalid : validateRemoteDescription d = true
  · cases hs : pc.signalingState with
    | HaveLocalOffer => exact ⟨rfl, by simp [NativePc.setRemoteDescription, hvalid, hs]⟩
    | Stable => exact absurd h (by simp [NativePc.setRemoteDescription, hvalid, hs])
    | HaveRemoteOffer => exact absurd h (by simp [NativePc.setRemoteDescription, hvalid, hs])
  · exact absurd h (by simp [NativePc.setRemoteDescription, hvalid])

/-- Every call under HL that sets a remote offer has one answer among its descriptions. -/
theorem call_answers_once {pc : NativePc} {c : Call} (h : pc.Accepts c) (hoffer : c.isRemoteOffer = true) :
    (pc.call c).2.count .answer = 1 := by
  rcases creates_or_sets c with hc | ⟨sdp, type, rfl⟩
  · rw [not_isRemoteOffer_of_creates hc] at hoffer
    exact absurd hoffer (by simp)
  · obtain rfl : type = "offer" := by simpa [Call.isRemoteOffer] using hoffer
    have haccepted : (pc.setRemoteDescription sdp .offer).isSome = true := h .offer rfl
    have hcall : pc.call (.setRemoteDescription sdp "offer") =
        (pc.setRemoteDescription sdp .offer).getD (pc, []) := rfl
    rw [hcall, setRemoteDescription_offer haccepted]
    rcases renegotiate_cases (pc.offered sdp).answered with hrest | hrest <;> simp [hrest]

/-! ## HL: after the first offer -/

/-- The connection has offered its own application in section "0" and taken in no other section. -/
structure Offering (pc : NativePc) : Prop where
  offered  : pc.localDescription = some ⟨some ⟨"0", false⟩, []⟩
  channels : pc.dataChannels ≠ 0
  tracks   : ∀ t ∈ pc.tracks, t.mid = "0"

/-- With the own application offered, only a track in another section needs an offer. -/
theorem Offering.negotiationNeeded {pc : NativePc} (h : Offering pc) : pc.negotiationNeeded = false := by
  have htracks : ∀ t ∈ pc.tracks, "0" = t.mid := fun t ht => (h.tracks t ht).symm
  simpa [NativePc.negotiationNeeded, h.offered, Description.hasApplication, Description.hasMid]
    using htracks

theorem Offering.createDataChannel {pc : NativePc} (h : Offering pc) :
    pc.createDataChannel.2 = [] ∧ Offering pc.createDataChannel.1 := by
  have hnext : Offering { pc with dataChannels := pc.dataChannels + 1 } :=
    ⟨h.offered, Nat.succ_ne_zero _, h.tracks⟩
  rw [NativePc.createDataChannel, renegotiate_eq_self fun _ => hnext.negotiationNeeded]
  exact ⟨rfl, hnext⟩

/-- A remote answer needs a new offer iff it brings a track. -/
theorem Offering.answer {pc : NativePc} (h : Offering pc) (d : Description) :
    let pc' := { pc.processRemoteDescription d with signalingState := .Stable }
    (pc'.renegotiate.2 = [] ↔ ∀ m ∈ d.media, m.mid = "0") ∧
      ((∀ m ∈ d.media, m.mid = "0") → Offering pc'.renegotiate.1) := by
  intro pc'
  by_cases hmids : ∀ m ∈ d.media, m.mid = "0"
  · have hnext : Offering pc' := by
      refine ⟨h.offered, h.channels, ?_⟩
      intro t ht
      rcases mem_addTracks ht with hold | ⟨m, hm, rfl⟩
      · exact h.tracks t hold
      · exact hmids m hm
    rw [renegotiate_eq_self fun _ => hnext.negotiationNeeded]
    exact ⟨⟨fun _ => hmids, fun _ => rfl⟩, fun _ => hnext⟩
  · have hneeded : pc'.negotiationNeeded = true := by
      push Not at hmids
      obtain ⟨m, hm, hmid⟩ := hmids
      have htrack : ∃ t ∈ d.media.foldl addTrack pc.tracks, t.mid = m.mid := exists_track hm
      obtain ⟨t, ht, htmid⟩ := htrack
      have hlocal : pc'.localDescription = some ⟨some ⟨"0", false⟩, []⟩ := h.offered
      have huncovered : pc'.tracks.any (fun t => !pc'.localDescription.any (·.hasMid t.mid)) = true := by
        refine List.any_eq_true.mpr ⟨t, ht, ?_⟩
        rw [hlocal, htmid]
        simpa [Description.hasMid] using fun he => hmid he.symm
      rw [NativePc.negotiationNeeded, huncovered, Bool.or_true, Bool.true_or]
    rw [renegotiate_needed rfl hneeded h.channels]
    refine ⟨⟨?_, fun he => absurd he hmids⟩, fun he => absurd he hmids⟩
    intro hnil
    exact absurd hnil (by simp)

theorem nativeType_cases (type : String) :
    (type = "offer" ∧ nativeType type = some .offer) ∨
    (type = "answer" ∧ nativeType type = some .answer) ∨
    (type ≠ "offer" ∧ type ≠ "answer" ∧ nativeType type = none) := by
  by_cases hoffer : type = "offer"
  · exact .inl ⟨hoffer, by simp [nativeType, hoffer]⟩
  · by_cases hanswer : type = "answer"
    · exact .inr (.inl ⟨hanswer, by simp [nativeType, hanswer]⟩)
    · exact .inr (.inr ⟨hoffer, hanswer, by simp [nativeType, hoffer, hanswer]⟩)

/-- The native stack sees nothing of a remote description of another type. -/
theorem call_ignored {pc : NativePc} {sdp : Description} {type : String} (h : nativeType type = none) :
    pc.call (.setRemoteDescription sdp type) = (pc, []) := by
  simp [NativePc.call, h]

/-- A remote offer is never silent. -/
theorem call_offer_ne_nil {pc : NativePc} {c : Call} (h : pc.Accepts c)
    (hoffer : c.isRemoteOffer = true) : (pc.call c).2 ≠ [] := by
  intro he
  have hcount := call_answers_once h hoffer
  rw [he] at hcount
  exact absurd hcount (by simp)

theorem call_of_creates {pc : NativePc} {c : Call} (h : c.creates = true) :
    pc.call c = pc.createDataChannel ∧ c.bringsTrack = false := by
  cases c with
  | createDatachannel _ => exact ⟨rfl, rfl⟩
  | createDatachannelWithOptions _ _ _ _ => exact ⟨rfl, rfl⟩
  | setRemoteDescription _ _ => exact absurd h (by simp [Call.creates])

/-- A remote offer is answered, so nothing that asks for silence can be said of it. -/
theorem not_silent_on_offer {pc : NativePc} {c : Call} {Q R : Prop} (h : pc.Accepts c)
    (hoffer : c.isRemoteOffer = true) :
    ((pc.call c).2 = [] ↔ c.isRemoteOffer = false ∧ Q) ∧ (c.isRemoteOffer = false ∧ Q → R) := by
  have hne := call_offer_ne_nil h hoffer
  rw [hoffer]
  refine ⟨⟨fun he => absurd he hne, ?_⟩, ?_⟩
  · rintro ⟨hfalse, -⟩
    exact absurd hfalse (by simp)
  · rintro ⟨hfalse, -⟩
    exact absurd hfalse (by simp)

/-- After the first offer, a connection is silent on everything but remote offers and new tracks. -/
theorem Offering.call {pc : NativePc} {c : Call} (h : Offering pc) (haccepts : pc.Accepts c) :
    ((pc.call c).2 = [] ↔ c.isRemoteOffer = false ∧ c.bringsTrack = false) ∧
      (c.isRemoteOffer = false ∧ c.bringsTrack = false → Offering (pc.call c).1) := by
  rcases creates_or_sets c with hc | ⟨sdp, type, rfl⟩
  · have hcreate : pc.call c = pc.createDataChannel ∧ c.bringsTrack = false := call_of_creates hc
    obtain ⟨hcall, hnot⟩ := hcreate
    obtain ⟨hsilent, hnext⟩ := h.createDataChannel
    rw [hcall]
    exact ⟨⟨fun _ => ⟨not_isRemoteOffer_of_creates hc, hnot⟩, fun _ => hsilent⟩, fun _ => hnext⟩
  · rcases nativeType_cases type with ⟨rfl, _⟩ | ⟨rfl, _⟩ | ⟨hoffer, hanswer, hnone⟩
    · exact not_silent_on_offer haccepts (by simp [Call.isRemoteOffer])
    · have haccepted : (pc.setRemoteDescription sdp .answer).isSome = true := haccepts .answer rfl
      have hcall : pc.call (.setRemoteDescription sdp "answer") =
          { pc.processRemoteDescription sdp with signalingState := .Stable }.renegotiate := by
        show (pc.setRemoteDescription sdp .answer).getD (pc, []) = _
        rw [(setRemoteDescription_answer haccepted).2, Option.getD_some]
      have hok : (Call.setRemoteDescription sdp "answer").isRemoteOffer = false ∧
          (Call.setRemoteDescription sdp "answer").bringsTrack = false ↔
          ∀ m ∈ sdp.media, m.mid = "0" := by
        simp [Call.isRemoteOffer, Call.bringsTrack]
      rw [hcall, hok]
      exact h.answer sdp
    · rw [call_ignored hnone]
      refine ⟨⟨fun _ => ⟨?_, ?_⟩, fun _ => rfl⟩, fun _ => h⟩
      · simp [Call.isRemoteOffer, hoffer]
      · simp [Call.bringsTrack, hanswer]

/-! ## HL: after the first answer -/

/-- The connection has answered and waits in the stable state; `app`: its description has an
    application. All its tracks are in the description, removed. -/
structure Answered (app : Bool) (pc : NativePc) : Prop where
  stable  : pc.signalingState = .Stable
  app     : pc.localDescription.any Description.hasApplication = app
  tracks  : ∀ t ∈ pc.tracks, pc.localDescription.any (·.hasMid t.mid) = true
  removed : pc.localDescription.any (·.media.any fun m => !m.removed) = false

/-- Only an own channel without an application needs an offer. -/
theorem Answered.negotiationNeeded {app : Bool} {pc : NativePc} (h : Answered app pc) :
    pc.negotiationNeeded = (decide (pc.dataChannels ≠ 0) && !app) := by
  have htracks : pc.tracks.any (fun t => !pc.localDescription.any (·.hasMid t.mid)) = false := by
    simpa using fun t ht => by simpa using h.tracks t ht
  have hremoved : pc.localDescription.any
      (·.media.any fun m => !m.removed && pc.tracks.any (·.mid = m.mid)) = false := by
    have hall := h.removed
    cases hlocal : pc.localDescription with
    | none => rfl
    | some d =>
        rw [hlocal, Option.any_some, List.any_eq_false] at hall
        rw [Option.any_some, List.any_eq_false]
        intro m hm
        have hm' := hall m hm
        simp only [Bool.not_eq_true] at hm'
        simp [hm']
  rw [NativePc.negotiationNeeded, htracks, hremoved, h.app, Bool.or_false, Bool.or_false]

/-- A channel created after the answer needs an offer iff the answer has no application. -/
theorem Answered.createDataChannel {app : Bool} {pc : NativePc} (h : Answered app pc) :
    (pc.createDataChannel.2 = [] ↔ app = true) ∧
      (app = true → Answered app pc.createDataChannel.1) := by
  have hnext : Answered app { pc with dataChannels := pc.dataChannels + 1 } :=
    ⟨h.stable, h.app, h.tracks, h.removed⟩
  cases app with
  | true =>
      rw [NativePc.createDataChannel, renegotiate_eq_self fun _ => by simp [hnext.negotiationNeeded]]
      exact ⟨⟨fun _ => rfl, fun _ => rfl⟩, fun _ => hnext⟩
  | false =>
      have hoffer := renegotiate_needed hnext.stable (by simp [hnext.negotiationNeeded])
        (Nat.succ_ne_zero pc.dataChannels)
      rw [NativePc.createDataChannel, hoffer]
      refine ⟨⟨?_, ?_⟩, ?_⟩
      · intro hnil
        exact absurd hnil (by simp)
      · intro happ
        exact absurd happ (by simp)
      · intro happ
        exact absurd happ (by simp)

/-- After the first answer, a connection is silent on everything but remote offers and, if the answer has
    no application, new channels. -/
theorem Answered.call {app : Bool} {pc : NativePc} {c : Call} (h : Answered app pc)
    (haccepts : pc.Accepts c) :
    ((pc.call c).2 = [] ↔ c.isRemoteOffer = false ∧ (c.creates = true → app = true)) ∧
      (c.isRemoteOffer = false ∧ (c.creates = true → app = true) → Answered app (pc.call c).1) := by
  rcases creates_or_sets c with hc | ⟨sdp, type, rfl⟩
  · have hcall : pc.call c = pc.createDataChannel := (call_of_creates hc).1
    obtain ⟨hsilent, hnext⟩ := h.createDataChannel
    rw [hcall]
    refine ⟨⟨?_, ?_⟩, ?_⟩
    · intro he
      exact ⟨not_isRemoteOffer_of_creates hc, fun _ => hsilent.mp he⟩
    · rintro ⟨-, happ⟩
      exact hsilent.mpr (happ hc)
    · rintro ⟨-, happ⟩
      exact hnext (happ hc)
  · rcases nativeType_cases type with ⟨rfl, _⟩ | ⟨rfl, _⟩ | ⟨hoffer, hanswer, hnone⟩
    · exact not_silent_on_offer haccepts (by simp [Call.isRemoteOffer])
    · -- no own offer is pending
      have hpending := (setRemoteDescription_answer (haccepts .answer rfl)).1
      rw [h.stable] at hpending
      exact absurd hpending (by simp)
    · rw [call_ignored hnone]
      refine ⟨⟨fun _ => ⟨?_, ?_⟩, fun _ => rfl⟩, fun _ => h⟩
      · simp [Call.isRemoteOffer, hoffer]
      · simp [Call.creates]

/-! ## HL: the first description -/

theorem new_createDataChannel :
    NativePc.new.createDataChannel.2 = [.offer] ∧ Offering NativePc.new.createDataChannel.1 :=
  ⟨by decide, by decide, by decide, by decide⟩

/-- The section that answers a section of audio or video keeps its mid. -/
theorem reciprocated_mid (tracks : List Media) (m : Media) :
    ((tracks.find? (·.mid = m.mid)).getD { m with removed := true }).mid = m.mid := by
  cases hfind : tracks.find? (·.mid = m.mid) with
  | none => rfl
  | some t => simpa using List.find?_some hfind

/-- The first answer takes over the sections of the offer. -/
theorem new_answered (d : Description) : Answered d.hasApplication (NativePc.new.offered d).answered := by
  have hlocal : (NativePc.new.offered d).answered.localDescription = some
      { application := d.application
        media := d.media.map fun m =>
          ((d.media.foldl addTrack []).find? (·.mid = m.mid)).getD { m with removed := true } } := by
    cases ha : d.application <;>
      simp [NativePc.answered, NativePc.processLocalDescription, NativePc.reciprocated,
        NativePc.offered, NativePc.processRemoteDescription, NativePc.new, ha]
  refine ⟨rfl, ?_, ?_, ?_⟩
  · rw [hlocal]
    rfl
  · intro t ht
    rcases mem_addTracks ht with hnil | ⟨m, hm, rfl⟩
    · exact absurd hnil (by simp [NativePc.new])
    · rw [hlocal, Option.any_some, Description.hasMid, Bool.or_eq_true]
      refine .inr (List.any_eq_true.mpr ⟨_, List.mem_map_of_mem hm, ?_⟩)
      simp [reciprocated_mid]
  · rw [hlocal, Option.any_some, List.any_eq_false]
    intro n hn
    obtain ⟨m, _, rfl⟩ := List.mem_map.mp hn
    cases hfind : (d.media.foldl addTrack []).find? (·.mid = m.mid) with
    | none => simp
    | some t =>
        rcases mem_addTracks (List.mem_of_find?_eq_some hfind) with hnil | ⟨m', _, rfl⟩
        · exact absurd hnil (by simp)
        · simp

/-- The first remote offer of a fresh connection is answered, and nothing follows. -/
theorem new_offer {sdp : Description} (h : NativePc.new.Accepts (.setRemoteDescription sdp "offer")) :
    (NativePc.new.call (.setRemoteDescription sdp "offer")).2 = [.answer] ∧
    Answered sdp.hasApplication (NativePc.new.call (.setRemoteDescription sdp "offer")).1 := by
  have haccepted : (NativePc.new.setRemoteDescription sdp .offer).isSome = true := h .offer rfl
  have hcall : NativePc.new.call (.setRemoteDescription sdp "offer") =
      (NativePc.new.setRemoteDescription sdp .offer).getD (NativePc.new, []) := rfl
  have hanswered := new_answered sdp
  have hchannels : (NativePc.new.offered sdp).answered.dataChannels = 0 := rfl
  have hquiet : (NativePc.new.offered sdp).answered.renegotiate =
      ((NativePc.new.offered sdp).answered, []) :=
    renegotiate_eq_self fun _ => by simp [hanswered.negotiationNeeded, hchannels]
  rw [hcall, setRemoteDescription_offer haccepted, hquiet]
  exact ⟨rfl, hanswered⟩

/-- The calls that can cause a description: remote offers and creations. -/
def Call.acts (c : Call) : Bool := c.isRemoteOffer || c.creates

/-- A connection whose first call makes a channel. -/
theorem emitted_creation {c : Call} {cs : List Call} (hc : c.creates = true)
    (h : Admits NativePc.call NativePc.Accepts .new (c :: cs)) :
    ∃ rest, emitted NativePc.call .new (c :: cs) = .offer :: rest ∧
      (rest = [] ↔ ∀ a ∈ c :: cs, a.isRemoteOffer = false ∧ a.bringsTrack = false) := by
  have hcreate : NativePc.new.call c = NativePc.new.createDataChannel ∧ c.bringsTrack = false :=
    call_of_creates hc
  obtain ⟨hcall, hnot⟩ := hcreate
  obtain ⟨hout, hoffering⟩ := new_createDataChannel
  rw [← hcall] at hout hoffering
  refine ⟨emitted NativePc.call (NativePc.new.call c).1 cs, ?_, ?_⟩
  · rw [emitted_cons, hout]
    rfl
  · rw [emitted_eq_nil_iff (fun s a hs ha => hs.call ha) h.2 hoffering, List.forall_mem_cons]
    exact ⟨fun hall => ⟨⟨not_isRemoteOffer_of_creates hc, hnot⟩, hall⟩, fun hall => hall.2⟩

/-- A connection whose first call sets a remote offer. -/
theorem emitted_offer {sdp : Description} {cs : List Call}
    (h : Admits NativePc.call NativePc.Accepts .new (.setRemoteDescription sdp "offer" :: cs)) :
    ∃ rest, emitted NativePc.call .new (.setRemoteDescription sdp "offer" :: cs) = .answer :: rest ∧
      (rest = [] ↔ ∀ c ∈ cs.filter Call.acts, c.creates = true ∧ sdp.hasApplication = true) := by
  obtain ⟨hout, hanswered⟩ := new_offer h.1
  refine ⟨emitted NativePc.call (NativePc.new.call (.setRemoteDescription sdp "offer")).1 cs, ?_, ?_⟩
  · rw [emitted_cons, hout]
    rfl
  · rw [emitted_eq_nil_iff (fun s a hs ha => hs.call ha) h.2 hanswered]
    refine ⟨?_, ?_⟩
    · intro hall c hmem
      obtain ⟨hin, hacts⟩ := List.mem_filter.mp hmem
      have hcreates : c.creates = true := by simpa [Call.acts, (hall c hin).1] using hacts
      exact ⟨hcreates, (hall c hin).2 hcreates⟩
    · intro hall c hmem
      by_cases hacts : c.acts = true
      · obtain ⟨hcreates, happ⟩ := hall c (List.mem_filter.mpr ⟨hmem, hacts⟩)
        exact ⟨not_isRemoteOffer_of_creates hcreates, fun _ => happ⟩
      · simp only [Call.acts, Bool.or_eq_true, not_or, Bool.not_eq_true] at hacts
        exact ⟨hacts.1, fun hcreates => absurd hcreates (by simp [hacts.2])⟩

/-- **What a fresh connection announces under HL.** Nothing; or an offer for its first channel, alone iff
    no remote offer and no track comes; or an answer to its first remote offer, alone iff only channels
    come after it, and they only if the offer has an application. -/
theorem emitted_native {calls : List Call} (h : Admits NativePc.call NativePc.Accepts .new calls) :
    (calls.filter Call.acts = [] ∧ (∀ c ∈ calls, c.bringsTrack = false) ∧
      emitted NativePc.call .new calls = []) ∨
    (∃ c cs rest, calls.filter Call.acts = c :: cs ∧ c.creates = true ∧
      emitted NativePc.call .new calls = .offer :: rest ∧
      (rest = [] ↔ ∀ a ∈ calls, a.isRemoteOffer = false ∧ a.bringsTrack = false)) ∨
    (∃ sdp cs rest, calls.filter Call.acts = .setRemoteDescription sdp "offer" :: cs ∧
      emitted NativePc.call .new calls = .answer :: rest ∧
      (rest = [] ↔ ∀ c ∈ cs, c.creates = true ∧ sdp.hasApplication = true)) := by
  induction calls with
  | nil => exact .inl ⟨rfl, by simp, rfl⟩
  | cons c cs ih =>
      by_cases hc : c.creates = true
      · obtain ⟨rest, hemitted, hrest⟩ := emitted_creation hc h
        refine .inr (.inl ⟨c, cs.filter Call.acts, rest, ?_, hc, hemitted, hrest⟩)
        exact List.filter_cons_of_pos (by simp [Call.acts, hc])
      · obtain ⟨sdp, type, rfl⟩ := (creates_or_sets c).resolve_left hc
        rcases nativeType_cases type with ⟨rfl, _⟩ | ⟨rfl, _⟩ | ⟨hoffer, hanswer, hnone⟩
        · obtain ⟨rest, hemitted, hrest⟩ := emitted_offer h
          refine .inr (.inr ⟨sdp, cs.filter Call.acts, rest, ?_, hemitted, hrest⟩)
          exact List.filter_cons_of_pos (by simp [Call.acts, Call.isRemoteOffer])
        · -- a fresh connection has no offer that could be answered
          have hpending := (setRemoteDescription_answer (h.1 .answer rfl)).1
          exact absurd hpending (by simp [NativePc.new])
        · have hno : (Call.setRemoteDescription sdp type).isRemoteOffer = false := by
            simp [Call.isRemoteOffer, hoffer]
          have hnot : (Call.setRemoteDescription sdp type).bringsTrack = false := by
            simp [Call.bringsTrack, hanswer]
          have hskip : ¬ (Call.setRemoteDescription sdp type).acts = true := by
            simp [Call.acts, hno, Call.creates]
          have hrun := h.2
          rw [call_ignored hnone] at hrun
          rw [List.filter_cons_of_neg hskip, emitted_cons, call_ignored hnone]
          simpa only [List.nil_append, List.forall_mem_cons, hno, hnot, true_and, and_self]
            using ih hrun

/-! ## Both backends -/

/-- The two backends announce the same descriptions, and each answers every remote offer once. -/
structure NegotiateAlike (createDataChannel : CreateDataChannel) (calls : List Call) : Prop where
  same : emitted NativePc.call .new calls = emitted (jsCall createDataChannel) false calls
  nativeAnswers : ∀ p ∈ trace NativePc.call .new calls, p.1.isRemoteOffer → p.2.count .answer = 1
  browserAnswers : ∀ p ∈ trace (jsCall createDataChannel) false calls,
    p.1.isRemoteOffer → p.2.count .answer = 1

/-- No remote offer and no new track; and if a channel is made, the browser makes one too. -/
def OffersOnly (createDataChannel : CreateDataChannel) (calls : List Call) : Prop :=
  (∀ c ∈ calls, c.isRemoteOffer = false ∧ c.bringsTrack = false) ∧
  ((∃ c ∈ calls, c.creates) → ∃ c ∈ calls, c.createsInBrowser createDataChannel)

/-- One remote offer before all channels; it has an application unless no channel is made. -/
def AnswersOnce (calls : List Call) : Prop :=
  ∃ sdp cs, calls.filter Call.acts = .setRemoteDescription sdp "offer" :: cs ∧
    ∀ c ∈ cs, c.creates = true ∧ sdp.hasApplication = true

theorem firstDescription_filter (createDataChannel : CreateDataChannel) (calls : List Call) :
    (calls.filter Call.acts).findSome? (Call.firstDescription createDataChannel) =
      calls.findSome? (Call.firstDescription createDataChannel) := by
  induction calls with
  | nil => rfl
  | cons c cs ih =>
      by_cases hacts : c.acts = true
      · rw [List.filter_cons_of_pos hacts, List.findSome?_cons, List.findSome?_cons, ih]
      · have hnone : c.firstDescription createDataChannel = none := by
          simp only [Call.acts, Bool.or_eq_true, not_or, Bool.not_eq_true] at hacts
          have hnot : ¬ c.createsInBrowser createDataChannel = true := fun hb =>
            absurd (creates_of_createsInBrowser hb) (by simp [hacts.2])
          simp [Call.firstDescription, hacts.1, hnot]
        rw [List.filter_cons_of_neg hacts, List.findSome?_cons, hnone, ih]

/-- Without remote offers, JS announces one offer if the browser makes a channel. -/
theorem emitted_js_offers {createDataChannel : CreateDataChannel} {calls : List Call}
    (h : ∀ c ∈ calls, c.isRemoteOffer = false) :
    emitted (jsCall createDataChannel) false calls =
      if ∃ c ∈ calls, c.createsInBrowser createDataChannel then [.offer] else [] := by
  rw [emitted_js]
  induction calls with
  | nil => simp
  | cons c cs ih =>
      obtain ⟨hc, hcs⟩ := List.forall_mem_cons.mp h
      by_cases hb : c.createsInBrowser createDataChannel = true
      · simp [Call.firstDescription, hc, hb]
      · simpa [Call.firstDescription, hc, hb] using ih hcs

/-- If a remote offer comes first, JS announces its answer. -/
theorem emitted_js_answer {createDataChannel : CreateDataChannel} {calls cs : List Call}
    {sdp : Description} (h : calls.filter Call.acts = .setRemoteDescription sdp "offer" :: cs) :
    emitted (jsCall createDataChannel) false calls = [.answer] := by
  rw [emitted_js, ← firstDescription_filter, h]
  rfl

/-- With one remote offer, first, JS answers every remote offer. -/
theorem AnswersOnce.browserAnswers {createDataChannel : CreateDataChannel} {calls : List Call}
    (h : AnswersOnce calls) : ∀ p ∈ trace (jsCall createDataChannel) false calls,
      p.1.isRemoteOffer → p.2.count .answer = 1 := by
  obtain ⟨sdp, creations, hfilter, hcreations⟩ := h
  induction calls with
  | nil => exact fun p hp => absurd hp (by simp [trace])
  | cons c cs ih =>
      intro p hp hoffer
      by_cases hacts : c.acts = true
      · rw [List.filter_cons_of_pos hacts] at hfilter
        obtain ⟨rfl, htail⟩ := List.cons.inj hfilter
        rcases List.mem_cons.mp hp with rfl | hp
        · rfl
        · -- a second remote offer would be among the creations
          have hmem : p.1 ∈ cs.filter Call.acts :=
            List.mem_filter.mpr ⟨mem_of_mem_trace hp, by simp [Call.acts, hoffer]⟩
          have hno := not_isRemoteOffer_of_creates (hcreations p.1 (htail ▸ hmem)).1
          exact absurd hoffer (by simp [hno])
      · rw [List.filter_cons_of_neg hacts] at hfilter
        simp only [Call.acts, Bool.or_eq_true, not_or, Bool.not_eq_true] at hacts
        rcases List.mem_cons.mp hp with rfl | hp
        · exact absurd hoffer (by simp [hacts.1])
        · have hflag : (jsCall createDataChannel false c).1 = false := by
            have hnot : ¬ c.createsInBrowser createDataChannel = true := fun hb =>
              absurd (creates_of_createsInBrowser hb) (by simp [hacts.2])
            rw [(jsCall_eq createDataChannel c).2]
            simp [Call.firstDescription, hacts.1, hnot]
          rw [hflag] at hp
          exact ih hfilter p hp hoffer

/-- Under HL every accepted remote offer is answered once, whatever came before. -/
theorem answers_once {calls : List Call} (h : Admits NativePc.call NativePc.Accepts .new calls) :
    ∀ p ∈ trace NativePc.call .new calls, p.1.isRemoteOffer → p.2.count .answer = 1 := by
  intro p hp
  exact trace_each (I := fun _ => True) (P := fun c out => c.isRemoteOffer = true → out.count .answer = 1)
    (fun _ _ _ haccepts => ⟨call_answers_once haccepts, trivial⟩) h trivial p hp

/-- A connection that offers first under HL. -/
theorem negotiations_alike_offering {createDataChannel : CreateDataChannel} {calls : List Call}
    {rest : List SdpType} (h : Admits NativePc.call NativePc.Accepts .new calls)
    (hemitted : emitted NativePc.call .new calls = .offer :: rest)
    (hrest : rest = [] ↔ ∀ a ∈ calls, a.isRemoteOffer = false ∧ a.bringsTrack = false)
    (hmakes : ∃ c ∈ calls, c.creates = true) :
    NegotiateAlike createDataChannel calls ↔ OffersOnly createDataChannel calls := by
  constructor
  · intro halike
    have hsame := halike.same
    have hnil : rest = [] := by
      rw [hemitted, emitted_js] at hsame
      cases hfirst : calls.findSome? (Call.firstDescription createDataChannel) with
      | none => exact absurd hsame (by simp [hfirst])
      | some t => exact (List.cons.inj (hfirst ▸ hsame)).2
    have hquiet := hrest.mp hnil
    refine ⟨hquiet, ?_⟩
    intro _
    rw [hemitted, emitted_js_offers fun c hc => (hquiet c hc).1] at hsame
    by_contra hnone
    rw [if_neg hnone] at hsame
    exact absurd hsame (by simp)
  · rintro ⟨hquiet, hbrowser⟩
    refine ⟨?_, answers_once h, ?_⟩
    · rw [hemitted, hrest.mpr hquiet, emitted_js_offers fun c hc => (hquiet c hc).1,
        if_pos (hbrowser hmakes)]
    · intro p hp hoffer
      exact absurd hoffer (by simp [(hquiet p.1 (mem_of_mem_trace hp)).1])

/-- **When the two backends negotiate alike.** For calls whose remote descriptions the native stack
    accepts, iff there is no remote offer, no answer brings a track, and the browser makes a channel if
    one is asked for; or there is one remote offer, before all channels, and it has an application unless
    no channel is made. -/
theorem negotiations_alike (createDataChannel : CreateDataChannel) (calls : List Call)
    (h : Admits NativePc.call NativePc.Accepts .new calls) :
    NegotiateAlike createDataChannel calls ↔ OffersOnly createDataChannel calls ∨ AnswersOnce calls := by
  rcases emitted_native h with ⟨hfilter, hnot, hemitted⟩ | ⟨c, cs, rest, hfilter, hc, hemitted, hrest⟩ |
    ⟨sdp, cs, rest, hfilter, hemitted, hrest⟩
  · -- no call acts
    have hidle : ∀ c ∈ calls, c.isRemoteOffer = false ∧ c.creates = false := by
      intro c hc
      have hacts := List.filter_eq_nil_iff.mp hfilter c hc
      simpa [Call.acts] using hacts
    have hmakes : ¬ ∃ c ∈ calls, c.creates = true := by
      rintro ⟨c, hc, hcreates⟩
      exact absurd hcreates (by simp [(hidle c hc).2])
    have hbrowser : ¬ ∃ c ∈ calls, c.createsInBrowser createDataChannel = true := by
      rintro ⟨c, hc, hcreates⟩
      exact hmakes ⟨c, hc, creates_of_createsInBrowser hcreates⟩
    refine ⟨fun _ => .inl ⟨fun c hc => ⟨(hidle c hc).1, hnot c hc⟩, fun he => absurd he hmakes⟩,
      fun _ => ⟨?_, answers_once h, fun p hp hoffer => ?_⟩⟩
    · rw [hemitted, emitted_js_offers fun c hc => (hidle c hc).1, if_neg hbrowser]
    · exact absurd hoffer (by simp [(hidle p.1 (mem_of_mem_trace hp)).1])
  · have hmem : c ∈ calls := List.mem_of_mem_filter (hfilter ▸ List.mem_cons_self)
    rw [negotiations_alike_offering h hemitted hrest ⟨c, hmem, hc⟩]
    refine ⟨.inl, fun he => he.resolve_right ?_⟩
    rintro ⟨sdp, cs', hfilter', _⟩
    obtain ⟨rfl, _⟩ := List.cons.inj (hfilter.symm.trans hfilter')
    exact absurd hc (by simp [Call.creates])
  · have hmem : Call.setRemoteDescription sdp "offer" ∈ calls :=
      List.mem_of_mem_filter (hfilter ▸ List.mem_cons_self)
    have hjs : emitted (jsCall createDataChannel) false calls = [.answer] := emitted_js_answer hfilter
    constructor
    · intro halike
      have hsame := halike.same
      rw [hemitted, hjs] at hsame
      exact .inr ⟨sdp, cs, hfilter, hrest.mp (List.cons.inj hsame).2⟩
    · rintro (hoffers | honce)
      · exact absurd (hoffers.1 _ hmem).1 (by simp [Call.isRemoteOffer])
      · refine ⟨?_, answers_once h, honce.browserAnswers⟩
        obtain ⟨sdp', cs', hfilter', hcs⟩ := honce
        obtain ⟨hcall, rfl⟩ := List.cons.inj (hfilter.symm.trans hfilter')
        obtain ⟨rfl, _⟩ := Call.setRemoteDescription.inj hcall
        rw [hemitted, hjs, hrest.mpr hcs]

/-- A channel, then the answer to its offer. -/
theorem negotiations_alike_run :
    Admits NativePc.call NativePc.Accepts .new
      [.createDatachannel "a", .setRemoteDescription ⟨some ⟨"0", false⟩, []⟩ "answer"] ∧
    NegotiateAlike (fun _ _ => true)
      [.createDatachannel "a", .setRemoteDescription ⟨some ⟨"0", false⟩, []⟩ "answer"] :=
  ⟨by decide, (negotiations_alike _ _ (by decide)).mpr (.inl ⟨by decide, by decide⟩)⟩

/-- **The backends differ.** The second of two remote offers is answered under HL only; and with a channel
    created before a remote offer (glare), JS never answers. -/
theorem negotiations_differ :
    ¬ (∀ createDataChannel calls, Admits NativePc.call NativePc.Accepts .new calls →
      NegotiateAlike createDataChannel calls) ∧
    emitted NativePc.call .new [.setRemoteDescription ⟨some ⟨"0", false⟩, []⟩ "offer",
      .setRemoteDescription ⟨some ⟨"0", false⟩, []⟩ "offer"] = [.answer, .answer] ∧
    emitted (jsCall fun _ _ => true) false [.setRemoteDescription ⟨some ⟨"0", false⟩, []⟩ "offer",
      .setRemoteDescription ⟨some ⟨"0", false⟩, []⟩ "offer"] = [.answer] ∧
    emitted NativePc.call .new [.createDatachannel "a",
      .setRemoteDescription ⟨some ⟨"0", false⟩, []⟩ "offer"] = [.offer, .answer] ∧
    emitted (jsCall fun _ _ => true) false [.createDatachannel "a",
      .setRemoteDescription ⟨some ⟨"0", false⟩, []⟩ "offer"] = [.offer] := by
  refine ⟨?_, by decide, by decide, by decide, by decide⟩
  intro hall
  have hsame := (hall (fun _ _ => true) [.setRemoteDescription ⟨some ⟨"0", false⟩, []⟩ "offer",
      .setRemoteDescription ⟨some ⟨"0", false⟩, []⟩ "offer"] (by decide)).same
  exact absurd hsame (by decide)

end HxDatachannel.Negotiation
