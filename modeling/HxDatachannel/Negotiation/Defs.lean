import HxDatachannel.Base.Transducer

/-!
# `Negotiation.Defs` — the descriptions that the two backends announce

Under HL the negotiation is libdatachannel's own: its peer connection keeps a signalling state, the local
and the remote description and the tracks it saw, and every offer and answer it issues reaches
`onLocalDescription`. Under JS the wrapper asks the browser for an offer or an answer itself and keeps one
flag, `_sdpGenerated`, for both.

An SDP text appears as the media sections it parses to. The native stack is built without media
(`NO_MEDIA`): a track is marked removed and closed as soon as it is created.
-/

namespace HxDatachannel.Negotiation

/-! ## Descriptions -/

inductive SdpType where
  | offer
  | answer
deriving DecidableEq, Repr

/-- `Description::Application`. -/
structure Application where
  mid     : String
  removed : Bool
deriving DecidableEq, Repr

/-- `Description::Media`: an audio or video section. -/
structure Media where
  mid      : String
  removed  : Bool
  inactive : Bool
deriving DecidableEq, Repr

structure Description where
  application : Option Application
  media       : List Media
deriving DecidableEq, Repr

def Description.hasApplication (d : Description) : Bool := d.application.any fun a => !a.removed

def Description.hasMid (d : Description) (mid : String) : Bool :=
  d.application.any (·.mid = mid) || d.media.any (·.mid = mid)

def Description.mediaCount (d : Description) : Nat := d.application.toList.length + d.media.length

/-- `validateRemoteDescription`: some section is active. -/
def validateRemoteDescription (d : Description) : Bool :=
  d.hasApplication || d.media.any fun m => !m.removed || !m.inactive

/-! ## The calls -/

/-- The calls on one `RTCPeerConnection`. -/
inductive Call where
  | createDatachannel (label : String)
  | createDatachannelWithOptions (label : String) (unordered : Bool)
      (maxRetransmits maxLifetime : Option Int)
  | setRemoteDescription (sdp : Description) (type : String)
deriving DecidableEq, Repr

/-- The call makes a channel. -/
def Call.creates : Call → Bool
  | .createDatachannel _                  => true
  | .createDatachannelWithOptions _ _ _ _ => true
  | .setRemoteDescription _ _             => false

/-- The call sets a remote offer. -/
def Call.isRemoteOffer : Call → Bool
  | .setRemoteDescription _ type => type = "offer"
  | _                            => false

/-- The call sets a remote answer with a section of audio or video. The mid "0" is taken: an own offer
    made before any remote description has its application there. -/
def Call.bringsTrack : Call → Bool
  | .setRemoteDescription sdp type => type = "answer" && sdp.media.any (·.mid ≠ "0")
  | _                              => false

/-! ## HL: the peer connection of libdatachannel -/

inductive SignalingState where
  | Stable
  | HaveLocalOffer
  | HaveRemoteOffer
deriving DecidableEq, Repr

/-- `impl::PeerConnection`, the fields that negotiation reads. -/
structure NativePc where
  signalingState          : SignalingState
  /-- The channels in `mDataChannels` and `mUnassignedDataChannels`. -/
  dataChannels            : Nat
  /-- `mTracks` and `mTrackLines`: the descriptions of the tracks. -/
  tracks                  : List Media
  remoteDescription       : Option Description
  localDescription        : Option Description
  currentLocalDescription : Option Description
deriving DecidableEq, Repr

def NativePc.new : NativePc := ⟨.Stable, 0, [], none, none, none⟩

/-- The first number from 0 on that is no mid of the description. -/
def unusedMid (d : Description) : String :=
  (((List.range (d.mediaCount + 1)).find? fun m => !d.hasMid (toString m)).map toString).getD ""

/-- `populateLocalDescription`, its first half: reciprocate the remote description. -/
def NativePc.reciprocated (pc : NativePc) : Description :=
  match pc.remoteDescription with
  | none        => ⟨none, []⟩
  | some remote =>
      -- with own channels the local description is preferred, and that is not removed
      { application := remote.application.map fun a =>
          if pc.dataChannels ≠ 0 then { a with removed := false } else a
        media := remote.media.map fun m =>
          (pc.tracks.find? (·.mid = m.mid)).getD { m with removed := true } }

/-- `populateLocalDescription`. An offer also gets the tracks and the application of the own channels. -/
def NativePc.populateLocalDescription (pc : NativePc) : SdpType → Description
  | .answer => pc.reciprocated
  | .offer  =>
      let description := { pc.reciprocated with
        media := pc.reciprocated.media ++ pc.tracks.filter fun t => !pc.reciprocated.hasMid t.mid }
      if !description.hasApplication ∧ pc.dataChannels ≠ 0 then
        { description with application := some ⟨unusedMid description, false⟩ }
      else description

/-- `negotiationNeeded`; every track is closed. -/
def NativePc.negotiationNeeded (pc : NativePc) : Bool :=
  (pc.dataChannels ≠ 0 && !pc.localDescription.any Description.hasApplication) ||
  pc.tracks.any (fun t => !pc.localDescription.any (·.hasMid t.mid)) ||
  pc.localDescription.any (·.media.any fun m => !m.removed && pc.tracks.any (·.mid = m.mid))

/-- `processLocalDescription`. -/
def NativePc.processLocalDescription (pc : NativePc) (d : Description) : NativePc :=
  { pc with
    currentLocalDescription := pc.localDescription.or pc.currentLocalDescription
    localDescription := some d }

/-- `setLocalDescription`, until the new signalling state: the description is issued, or the call throws
    or is ignored. -/
def NativePc.issue (pc : NativePc) (type : SdpType) : NativePc × List SdpType :=
  let newSignalingState? : Option SignalingState :=
    match pc.signalingState, type with
    | .Stable, .offer           => some .HaveLocalOffer
    | .HaveRemoteOffer, .answer => some .Stable
    | _, _                      => none
  match newSignalingState? with
  | none => (pc, [])
  | some newSignalingState =>
      let description := pc.populateLocalDescription type
      -- "No DataChannel or Track to negotiate"
      if description.mediaCount = 0 then (pc, [])
      else ({ pc.processLocalDescription description with signalingState := newSignalingState }, [type])

/-- In the stable state, make a new offer if one is needed. -/
def NativePc.renegotiate (pc : NativePc) : NativePc × List SdpType :=
  if pc.signalingState = .Stable ∧ pc.negotiationNeeded then pc.issue .offer else (pc, [])

/-- `setLocalDescription` of an answer, which may be followed by an offer. -/
def NativePc.setLocalAnswer (pc : NativePc) : NativePc × List SdpType :=
  let (pc', issued) := pc.issue .answer
  if issued = [] then (pc', [])
  else
    let (pc'', offered) := pc'.renegotiate
    (pc'', issued ++ offered)

/-- `rollbackLocalDescription`. -/
def NativePc.rollbackLocalDescription (pc : NativePc) : NativePc :=
  match pc.currentLocalDescription with
  | none         => pc
  | some current => { pc with localDescription := some current, currentLocalDescription := none }

/-- One section of audio or video in `processRemoteDescription`: a track unless there is one. -/
def addTrack (tracks : List Media) (m : Media) : List Media :=
  if tracks.any (·.mid = m.mid) then tracks else tracks ++ [{ m with removed := true }]

/-- `processRemoteDescription`. -/
def NativePc.processRemoteDescription (pc : NativePc) (d : Description) : NativePc :=
  { pc with tracks := d.media.foldl addTrack pc.tracks, remoteDescription := some d }

/-- `PeerConnection::setRemoteDescription`; `none`: it throws. A remote offer rolls a pending local one
    back and is answered. -/
def NativePc.setRemoteDescription (pc : NativePc) (d : Description) (type : SdpType) :
    Option (NativePc × List SdpType) :=
  if !validateRemoteDescription d then none
  else match pc.signalingState, type with
    | .Stable, .offer =>
        some { pc.processRemoteDescription d with signalingState := .HaveRemoteOffer }.setLocalAnswer
    -- glare: the pending offer is given up
    | .HaveLocalOffer, .offer =>
        some { pc.rollbackLocalDescription.processRemoteDescription d with
          signalingState := .HaveRemoteOffer }.setLocalAnswer
    | .HaveLocalOffer, .answer =>
        some { pc.processRemoteDescription d with signalingState := .Stable }.renegotiate
    | _, _ => none

/-- `PeerConnection::createDataChannel`. -/
def NativePc.createDataChannel (pc : NativePc) : NativePc × List SdpType :=
  { pc with dataChannels := pc.dataChannels + 1 }.renegotiate

/-- `set_remote_description` passes these two types on, and no other. -/
def nativeType (type : String) : Option SdpType :=
  if type = "offer" then some .offer else if type = "answer" then some .answer else none

/-- The native stack accepts the remote description that the call gives it. -/
def NativePc.Accepts (pc : NativePc) : Call → Prop
  | .setRemoteDescription sdp type =>
      ∀ t ∈ nativeType type, (pc.setRemoteDescription sdp t).isSome
  | _ => True

instance (pc : NativePc) : ∀ call, Decidable (pc.Accepts call)
  | .setRemoteDescription sdp type =>
      inferInstanceAs (Decidable (∀ t ∈ nativeType type, (pc.setRemoteDescription sdp t).isSome))
  | .createDatachannel _ => inferInstanceAs (Decidable True)
  | .createDatachannelWithOptions _ _ _ _ => inferInstanceAs (Decidable True)

/-- A call under HL, with the types that reach `onLocalDescription` because of it. -/
def NativePc.call (pc : NativePc) : Call → NativePc × List SdpType
  | .createDatachannel _                  => pc.createDataChannel
  | .createDatachannelWithOptions _ _ _ _ => pc.createDataChannel
  | .setRemoteDescription sdp type        =>
      match nativeType type with
      | some t => (pc.setRemoteDescription sdp t).getD (pc, [])
      | none   => (pc, [])

/-! ## JS: one flag -/

/-- The dictionary that `createDatachannelWithOptions` passes to the browser. -/
structure RTCDataChannelInit where
  ordered           : Bool
  maxRetransmits    : Option Int
  maxPacketLifeTime : Option Int
deriving DecidableEq, Repr

/-- The browser's `createDataChannel` returns a channel (`true`) or throws. -/
abbrev CreateDataChannel := String → Option RTCDataChannelInit → Bool

def initOf (unordered : Bool) (maxRetransmits maxLifetime : Option Int) : RTCDataChannelInit :=
  let reliable := maxRetransmits = some 0 ∧ maxLifetime = some 0
  { ordered := !unordered
    maxRetransmits := if reliable then none else maxRetransmits
    maxPacketLifeTime := if reliable then none else maxLifetime }

/-- The call makes a channel in the browser. -/
def Call.createsInBrowser (createDataChannel : CreateDataChannel) : Call → Bool
  | .createDatachannel label => createDataChannel label none
  | .createDatachannelWithOptions label unordered maxRetransmits maxLifetime =>
      createDataChannel label (some (initOf unordered maxRetransmits maxLifetime))
  | .setRemoteDescription _ _ => false

/-- A call under JS in a state of `_sdpGenerated`, with the types that reach `onLocalDescription` once the
    promise it may have made resolves. If `createDataChannel` throws, so does the call. -/
def jsCall (createDataChannel : CreateDataChannel) (sdpGenerated : Bool) (call : Call) :
    Bool × List SdpType :=
  match call with
  | .setRemoteDescription _ type =>
      if type = "offer" ∧ !sdpGenerated then (true, [.answer]) else (sdpGenerated, [])
  | call =>
      if call.createsInBrowser createDataChannel ∧ !sdpGenerated then (true, [.offer])
      else (sdpGenerated, [])

end HxDatachannel.Negotiation
