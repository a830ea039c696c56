import HxDatachannel.Base.Transducer
import HxDatachannel.Binding.Text
import HxDatachannel.IceServer.Defs
import HxDatachannel.Native.Tables
import Mathlib.Algebra.Group.Int.Defs

/-!
# `Connection.Create` — creating connections and channels under HL

The constructor of `RTCPeerConnection` and the two functions that create a channel wrap the id that the C API
returns. A failure is an id as well, a negative one, and nothing between the C API and the application looks
at the sign. `created_or_thrown` says in which runs each creation succeeds with what was asked for, or fails
with an exception and leaves no trace.

In force is what the configuration of the native connection says. The ICE agent reads it from there.
-/

namespace HxDatachannel.Create

open Transducer Native

/-! ## The native configuration -/

/-- The fields of `rtcConfiguration` that the binding sets. The ports are 16 bits wide. -/
structure RtcConfiguration where
  iceServers     : List Bytes
  bindAddress    : Bytes
  portRangeBegin : Nat
  portRangeEnd   : Nat
  mtu            : Int
  maxMessageSize : Int
deriving DecidableEq, Repr

/-- `rtc::Configuration`. The default port range lets the system choose. -/
structure Configuration where
  iceServers     : List Ice.IceServer
  bindAddress    : Bytes
  portRangeBegin : Nat := 1024
  portRangeEnd   : Nat := 65535
  mtu            : Option Nat := none
  maxMessageSize : Option Nat := none
deriving DecidableEq, Repr

/-- The assignments in `rtcCreatePeerConnection`. -/
def RtcConfiguration.assigned (conf : RtcConfiguration) (iceServers : List Ice.IceServer) : Configuration :=
  { iceServers, bindAddress := cstring conf.bindAddress
    portRangeBegin :=
      if conf.portRangeBegin > 0 ∨ conf.portRangeEnd > 0 then conf.portRangeBegin else 1024
    portRangeEnd := if conf.portRangeBegin > 0 ∨ conf.portRangeEnd > 0 then conf.portRangeEnd else 65535
    mtu := if conf.mtu > 0 then some conf.mtu.toNat else none
    maxMessageSize := if conf.maxMessageSize ≠ 0 then some conf.maxMessageSize.toNat else none }

/-- `rtcCreatePeerConnection` up to the table of connections; `none` where an exception is caught. -/
def configuration (conf : RtcConfiguration) : Option Configuration := do
  let iceServers ← conf.iceServers.mapM fun url => Ice.iceServer (cstring url)
  let c := conf.assigned iceServers
  if c.portRangeEnd ≠ 0 ∧ c.portRangeEnd < c.portRangeBegin then none  -- "Invalid port range"
  else if ∃ m ∈ c.mtu, m < 576 then none                               -- "Invalid MTU value"
  else some c

/-! ## The objects -/

/-- The HL wrapper of a connection; of a channel in `dataChannels` it is the native id that matters. -/
structure RTCPeerConnection where
  inner          : Int
  portBegin      : Int
  portEnd        : Int
  mtu            : Int
  maxMessageSize : Int
  dataChannels   : List Int
deriving DecidableEq, Repr

/-- `wrappers`: how many wrappers there are; the next one gets this number as its address. -/
structure World where
  inited      : Bool
  native      : Tables Nat
  config      : Int → Option Configuration
  wrappers    : Nat
  connections : List RTCPeerConnection

def World.start : World :=
  { inited := false, native := .empty, config := fun _ => none, wrappers := 0, connections := [] }

/-! ## The binding -/

/-- `conf.portRangeBegin = portBegin` and the other assignments. -/
def rtcConfiguration (iceServers : List Bytes) (bindAddress : String) (portBegin portEnd mtu
    maxMessageSize : Int) : RtcConfiguration :=
  { iceServers, bindAddress := utf8 bindAddress, portRangeBegin := (portBegin % 2 ^ 16).toNat,
    portRangeEnd := (portEnd % 2 ^ 16).toNat, mtu, maxMessageSize }

def setCallbacks (t : Tables Nat) (i : Int) (events : List Event) : Tables Nat :=
  events.foldl (fun t e => t.rtcSetCallback i e) t

/-- `failure`: what else can go wrong in the library. -/
def rtcCreatePeerConnection (t : Tables Nat) (conf : RtcConfiguration) (failure : Option Nat) :
    Int × Tables Nat :=
  t.rtcCreatePeerConnection (if configuration conf = none then some 0 else failure)

/-- The native id that the wrapper gets, and the world with the wrapper in it. -/
def create_peer_connection (w : World) (conf : RtcConfiguration) (failure : Option Nat) : Int × World :=
  let created := rtcCreatePeerConnection w.native conf failure
  let pc := created.1
  let native := created.2.rtcSetUserPointer pc (some w.wrappers)
  (pc,
    { w with
      native := setCallbacks native pc [.description, .candidate, .stateChange, .gatheringState]
      config := if pc > 0 then Function.update w.config pc (configuration conf) else w.config
      wrappers := w.wrappers + 1 })

def set_peerconnection_datachannel_cb (w : World) (pc : Int) : World :=
  { w with native := w.native.rtcSetCallback pc .dataChannel }

def hl_rtc_make_datachannel (w : World) (dc : Int) : World :=
  { w with
    native := setCallbacks (w.native.rtcSetUserPointer dc (some w.wrappers)) dc
      [.opened, .closed, .error, .message, .bufferedAmountLow]
    wrappers := w.wrappers + 1 }

/-- `create_datachannel` and `create_datachannel_ex`, which differ in what is passed on to the library. -/
def create_datachannel (w : World) (pc : Int) (failure : Option Nat) : Int × World :=
  let created := w.native.rtcCreateDataChannelEx pc failure
  (created.1, hl_rtc_make_datachannel { w with native := created.2 } created.1)

/-! ## The wrapper -/

/-- The arguments of the constructor. -/
structure Args where
  iceServers     : List String
  bindAddress    : String
  portBegin      : Int := 0
  portEnd        : Int := 0
  mtu            : Int := 0
  maxMessageSize : Int := 0

/-- What the constructor passes on: negative numbers count as 0. -/
def Args.rtcConfiguration (a : Args) : RtcConfiguration :=
  Create.rtcConfiguration (a.iceServers.map utf8) a.bindAddress (if a.portBegin ≥ 0 then a.portBegin else 0)
    (if a.portEnd ≥ 0 then a.portEnd else 0) (if a.mtu ≥ 0 then a.mtu else 0)
    (if a.maxMessageSize ≥ 0 then a.maxMessageSize else 0)

/-- The wrapper that records them. -/
def Args.wrapper (a : Args) (inner : Int) : RTCPeerConnection :=
  { inner, portBegin := if a.portBegin > 0 then a.portBegin else 0,
    portEnd := if a.portEnd > 0 then a.portEnd else 0, mtu := if a.mtu > 0 then a.mtu else 0,
    maxMessageSize := if a.maxMessageSize > 0 then a.maxMessageSize else 0, dataChannels := [] }

/-- `new RTCPeerConnection`; with the message of the exception that is thrown. -/
def World.new (w : World) (a : Args) (failure : Option Nat) : World × List String :=
  if ¬w.inited then (w, ["RTC is not initialized"])
  else
    let created := create_peer_connection w a.rtcConfiguration failure
    ({ set_peerconnection_datachannel_cb created.2 created.1 with
       connections := w.connections ++ [a.wrapper created.1] }, [])

/-- `this.dataChannels.push(dc)` -/
def RTCPeerConnection.push (c : RTCPeerConnection) (dc : Int) : RTCPeerConnection :=
  { c with dataChannels := c.dataChannels ++ [dc] }

def World.createDatachannel (w : World) (k : Nat) (failure : Option Nat) : World × List String :=
  match w.connections[k]? with
  | some c =>
      let created := create_datachannel w c.inner failure
      ({ created.2 with connections := w.connections.set k (c.push created.1) }, [])
  | none => (w, [])

/-- The channel of the other peer is announced, and `process_events` makes its wrapper. -/
def World.onDataChannel (w : World) (k : Nat) : World × List String :=
  match w.connections[k]? with
  | some c =>
      if .dataChannel ∈ w.native.callbacks c.inner then
        let incoming := w.native.incomingDataChannel c.inner
        ({ hl_rtc_make_datachannel { w with native := incoming.2 } incoming.1 with
           connections := w.connections.set k (c.push incoming.1) }, [])
      else (w, [])
  | none => (w, [])

/-- `k`: which connection. -/
inductive Act where
  | init
  | finalize
  | new (a : Args) (failure : Option Nat)
  | createDatachannel (k : Nat) (failure : Option Nat)
  | createDatachannelWithOptions (k : Nat) (failure : Option Nat)
  | onDataChannel (k : Nat)

def step (w : World) : Act → World × List String
  | .init                                => ({ w with inited := true }, [])
  | .finalize                            => ({ w with inited := false }, [])
  | .new a failure                       => w.new a failure
  | .createDatachannel k failure         => w.createDatachannel k failure
  | .createDatachannelWithOptions k failure => w.createDatachannel k failure
  | .onDataChannel k                     => w.onDataChannel k

/-! ## What is expected of a creation -/

/-- Every channel in `dataChannels` wraps a positive native id. -/
def AllPositive (w : World) : Prop := ∀ c ∈ w.connections, ∀ dc ∈ c.dataChannels, 0 < dc

/-- The native connection runs with the values that are recorded on the wrapper; 0 stands for automatic. -/
def InForce (c : RTCPeerConnection) (config : Configuration) : Prop :=
  (if c.portBegin = 0 ∧ c.portEnd = 0 then config.portRangeBegin = 1024 ∧ config.portRangeEnd = 65535
    else (config.portRangeBegin : Int) = c.portBegin ∧ (config.portRangeEnd : Int) = c.portEnd) ∧
  ((config.mtu.getD 0 : Nat) : Int) = c.mtu ∧
  ((config.maxMessageSize.getD 0 : Nat) : Int) = c.maxMessageSize

/-- No channel lists, callbacks or user pointers have changed. -/
def Untouched (w w' : World) : Prop :=
  w'.connections = w.connections ∧ w'.native.callbacks = w.native.callbacks ∧
  w'.native.userPointerMap = w.native.userPointerMap

/-- A connection is created: it wraps the positive id that the library returned and runs with the values on
    the wrapper; or the library returned none, and the constructor throws and leaves no trace. -/
def ExpectedNew (w : World) (a : Args) (failure : Option Nat) : Prop :=
  let code := (rtcCreatePeerConnection w.native a.rtcConfiguration failure).1
  let after := w.new a failure
  (w.inited ∧ 0 < code ∧ after.2 = [] ∧ ∃ c config, after.1.connections = w.connections ++ [c] ∧
    c.inner = code ∧ c.dataChannels = [] ∧ after.1.config code = some config ∧ InForce c config) ∨
  ((w.inited → code < 0) ∧ after.2 ≠ [] ∧ Untouched w after.1)

/-- A channel is created: the list ends with a wrapper of the positive id that the library returned; or the
    library returned none, and the call throws and leaves no trace. -/
def ExpectedChannel (w : World) (k : Nat) (failure : Option Nat) : Prop :=
  ∀ c ∈ w.connections[k]?,
    let code := (w.native.rtcCreateDataChannelEx c.inner failure).1
    let after := w.createDatachannel k failure
    (0 < code ∧ after.2 = [] ∧ after.1.connections = w.connections.set k (c.push code)) ∨
    (code < 0 ∧ after.2 ≠ [] ∧ Untouched w after.1)

def Expected (w : World) (a : Act) : Prop :=
  AllPositive (step w a).1 ∧
  match a with
  | .new args failure                       => ExpectedNew w args failure
  | .createDatachannel k failure            => ExpectedChannel w k failure
  | .createDatachannelWithOptions k failure => ExpectedChannel w k failure
  | _                                       => True

/-- RTC is not initialised, or the library takes the arguments and no port is out of range; and the library
    creates every channel. -/
def Good (w : World) : Act → Prop
  | .new a failure => w.inited →
      configuration a.rtcConfiguration ≠ none ∧ failure = none ∧ a.portBegin < 2 ^ 16 ∧ a.portEnd < 2 ^ 16
  | .createDatachannel k failure | .createDatachannelWithOptions k failure =>
      ∀ c ∈ w.connections[k]?, w.native.peerConnectionMap c.inner = true ∧ failure = none
  | _ => True

/-! ## Which runs meet it -/

/-- Negative numbers are recorded, and passed on, as 0. -/
theorem clamp_eq (n : Int) : (if n > 0 then n else 0) = if n ≥ 0 then n else 0 := by
  split <;> split <;> omega

theorem clamp_nonneg (n : Int) : 0 ≤ if n ≥ 0 then n else 0 := by
  split <;> omega

theorem clamp_lt (n : Int) : (if n ≥ 0 then n else 0) < 2 ^ 16 ↔ n < 2 ^ 16 := by
  split <;> omega

/-- A range of ports, cut to 16 bits each, is the one that was asked for iff nothing was cut off. -/
theorem ports_iff {x y : Int} (hx : 0 ≤ x) (hy : 0 ≤ y) :
    (if x = 0 ∧ y = 0 then
        (if (x % 2 ^ 16).toNat > 0 ∨ (y % 2 ^ 16).toNat > 0 then (x % 2 ^ 16).toNat else 1024) = 1024 ∧
        (if (x % 2 ^ 16).toNat > 0 ∨ (y % 2 ^ 16).toNat > 0 then (y % 2 ^ 16).toNat else 65535) = 65535
      else
        ((if (x % 2 ^ 16).toNat > 0 ∨ (y % 2 ^ 16).toNat > 0 then (x % 2 ^ 16).toNat else 1024 : Nat) : Int) = x ∧
        ((if (x % 2 ^ 16).toNat > 0 ∨ (y % 2 ^ 16).toNat > 0 then (y % 2 ^ 16).toNat else 65535 : Nat) : Int) = y)
      ↔ x < 2 ^ 16 ∧ y < 2 ^ 16 := by
  by_cases hzero : x = 0 ∧ y = 0
  · obtain ⟨rfl, rfl⟩ := hzero
    decide
  · rw [if_neg hzero]
    by_cases hcut : (x % 2 ^ 16).toNat > 0 ∨ (y % 2 ^ 16).toNat > 0
    · rw [if_pos hcut, if_pos hcut]
      omega
    · rw [if_neg hcut, if_neg hcut]
      omega

/-- The recorded values are in force iff no port was cut to 16 bits. -/
theorem inForce_iff {a : Args} {config : Configuration} (inner : Int)
    (h : configuration a.rtcConfiguration = some config) :
    InForce (a.wrapper inner) config ↔ a.portBegin < 2 ^ 16 ∧ a.portEnd < 2 ^ 16 := by
  obtain ⟨servers, -, hchecks⟩ := Option.bind_eq_some_iff.mp h
  obtain ⟨-, hmtu'⟩ := Option.ite_none_left_eq_some.mp hchecks
  obtain ⟨-, hsome⟩ := Option.ite_none_left_eq_some.mp hmtu'
  obtain rfl := Option.some.inj hsome
  clear h hchecks hmtu' hsome
  have hmtu : ∀ n : Int, 0 ≤ n → (((if n > 0 then some n.toNat else none : Option Nat).getD 0 : Nat) : Int) = n := by
    intro n hn
    split
    · exact Int.toNat_of_nonneg hn
    · show (0 : Int) = n
      omega
  have hsize : ∀ n : Int, 0 ≤ n → (((if n ≠ 0 then some n.toNat else none : Option Nat).getD 0 : Nat) : Int) = n := by
    intro n hn
    split
    · exact Int.toNat_of_nonneg hn
    · show (0 : Int) = n
      omega
  rw [← clamp_lt a.portBegin, ← clamp_lt a.portEnd,
    ← ports_iff (clamp_nonneg a.portBegin) (clamp_nonneg a.portEnd)]
  simp only [InForce, Args.wrapper, clamp_eq]
  exact ⟨fun h => h.1, fun h => ⟨h, hmtu _ (clamp_nonneg a.mtu), hsize _ (clamp_nonneg a.maxMessageSize)⟩⟩

theorem rtcCreatePeerConnection_code (t : Tables Nat) (conf : RtcConfiguration) (failure : Option Nat) :
    ((configuration conf ≠ none ∧ failure = none) ∧ 0 < (rtcCreatePeerConnection t conf failure).1) ∨
    (¬(configuration conf ≠ none ∧ failure = none) ∧ (rtcCreatePeerConnection t conf failure).1 < 0) := by
  unfold rtcCreatePeerConnection
  by_cases hconf : configuration conf = none
  · rw [if_pos hconf]
    refine .inr ⟨fun h => h.1 hconf, ?_⟩
    exact (Tables.rtcCreatePeerConnection_code (some 0)).elim (fun h => absurd h.1 (by simp)) And.right
  · rw [if_neg hconf]
    rcases Tables.rtcCreatePeerConnection_code (t := t) failure with ⟨hnone, hcode⟩ | ⟨hsome, hcode⟩
    · refine .inl ⟨⟨hconf, hnone⟩, ?_⟩
      rw [hcode]
      exact Tables.nextId_pos
    · exact .inr ⟨fun h => hsome h.2, hcode⟩

/-- **Connections.** A connection is created as expected iff the arguments are good. -/
theorem expectedNew_iff (w : World) (a : Args) (failure : Option Nat) :
    ExpectedNew w a failure ↔ Good w (.new a failure) := by
  unfold ExpectedNew World.new
  by_cases hinit : w.inited = true
  · rw [if_neg (not_not.mpr hinit)]
    have hcode : (create_peer_connection w a.rtcConfiguration failure).1 =
        (rtcCreatePeerConnection w.native a.rtcConfiguration failure).1 := rfl
    rcases rtcCreatePeerConnection_code w.native a.rtcConfiguration failure with
      ⟨⟨hconf, hnone⟩, hpos⟩ | ⟨hbad, hneg⟩
    · obtain ⟨config, hconfig⟩ := Option.ne_none_iff_exists'.mp hconf
      have hupdate : (create_peer_connection w a.rtcConfiguration failure).2.config
          (rtcCreatePeerConnection w.native a.rtcConfiguration failure).1 = some config := by
        show (if _ > 0 then _ else _ : Int → Option Configuration) _ = _
        rw [if_pos hpos]
        exact (Function.update_self ..).trans hconfig
      have hgood : Good w (.new a failure) ↔ a.portBegin < 2 ^ 16 ∧ a.portEnd < 2 ^ 16 :=
        ⟨fun h => (h hinit).2.2, fun h _ => ⟨hconf, hnone, h⟩⟩
      rw [hgood, ← inForce_iff (rtcCreatePeerConnection w.native a.rtcConfiguration failure).1 hconfig]
      constructor
      · rintro (⟨-, -, -, c, config', hconns, -, -, hconfig', hforce⟩ | ⟨hneg, -⟩)
        · obtain rfl : a.wrapper _ = c := by simpa using hconns
          obtain rfl := Option.some.inj (hupdate.symm.trans hconfig')
          exact hforce
        · exact absurd (hneg hinit) (by omega)
      · exact fun hforce => .inl ⟨hinit, hpos, rfl, _, config, rfl, rfl, rfl, hupdate, hforce⟩
    · -- the constructor never throws, so a failure is not reported
      refine iff_of_false ?_ fun h => hbad ⟨(h hinit).1, (h hinit).2.1⟩
      rintro (⟨-, hpos, -⟩ | ⟨-, hthrown, -⟩)
      · exact absurd hpos (by omega)
      · exact hthrown rfl
  · rw [if_pos hinit]
    refine iff_of_true (.inr ⟨fun h => absurd h hinit, ?_, rfl, rfl, rfl⟩) fun h => absurd h hinit
    exact List.cons_ne_nil _ _

/-- **Channels.** A channel is created as expected iff the library creates it. -/
theorem expectedChannel_iff (w : World) (k : Nat) (failure : Option Nat) :
    ExpectedChannel w k failure ↔ Good w (.createDatachannel k failure) := by
  cases hk : w.connections[k]? with
  | none =>
      have hnot : ∀ c, c ∉ w.connections[k]? := fun c hc => absurd (hk.symm.trans hc) (by simp)
      exact iff_of_true (fun c hc => absurd hc (hnot c)) fun c hc => absurd hc (hnot c)
  | some c =>
      have hforall : ∀ P : RTCPeerConnection → Prop, (∀ c' ∈ some c, P c') ↔ P c := fun P =>
        ⟨fun h => h c rfl, fun h c' hc' => Option.some.inj hc' ▸ h⟩
      have hgood : Good w (.createDatachannel k failure) ↔
          w.native.peerConnectionMap c.inner = true ∧ failure = none := by
        show (∀ c' ∈ w.connections[k]?, _) ↔ _
        rw [hk]
        exact hforall _
      rw [hgood]
      unfold ExpectedChannel World.createDatachannel
      rw [hk, hforall]
      rcases Tables.rtcCreateDataChannelEx_code (t := w.native) c.inner failure with
        ⟨hgood, hcode⟩ | ⟨hbad, hneg⟩
      · refine iff_of_true (.inl ⟨?_, rfl, rfl⟩) hgood
        rw [hcode]
        exact Tables.nextId_pos
      · refine iff_of_false ?_ hbad
        rintro (⟨hpos, -⟩ | ⟨-, hthrown, -⟩)
        · exact absurd hpos (by omega)
        · exact hthrown rfl

/-! ## Positive ids -/

theorem allPositive_new {w : World} (h : AllPositive w) (a : Args) (failure : Option Nat) :
    AllPositive (w.new a failure).1 := by
  unfold World.new
  split
  · exact h
  · intro c hc dc hdc
    rcases List.mem_append.mp hc with hc | hc
    · exact h c hc dc hdc
    · obtain rfl := List.mem_singleton.mp hc
      exact absurd hdc (by simp [Args.wrapper])

/-- A channel list stays positive iff what is pushed is. -/
theorem allPositive_push {w : World} (h : AllPositive w) {k : Nat} {c : RTCPeerConnection} {dc : Int}
    (hk : w.connections[k]? = some c) :
    (∀ c' ∈ w.connections.set k (c.push dc), ∀ dc' ∈ c'.dataChannels, 0 < dc') ↔ 0 < dc := by
  obtain ⟨hlt, hget⟩ := List.getElem?_eq_some_iff.mp hk
  constructor
  · intro hall
    apply hall (c.push dc) (List.mem_set hlt _) dc
    simp [RTCPeerConnection.push]
  · intro hpos c' hc' dc' hdc'
    rcases List.mem_or_eq_of_mem_set hc' with hc' | rfl
    · exact h c' hc' dc' hdc'
    · rcases List.mem_append.mp hdc' with hdc' | hdc'
      · exact h c (hget ▸ List.getElem_mem hlt) dc' hdc'
      · rwa [List.mem_singleton.mp hdc']

theorem allPositive_createDatachannel {w : World} (h : AllPositive w) {k : Nat} {failure : Option Nat}
    (hgood : Good w (.createDatachannel k failure)) : AllPositive (w.createDatachannel k failure).1 := by
  unfold World.createDatachannel
  cases hk : w.connections[k]? with
  | none => exact h
  | some c =>
      refine (allPositive_push h hk).mpr ?_
      rcases Tables.rtcCreateDataChannelEx_code (t := w.native) c.inner failure with ⟨-, hcode⟩ | ⟨hbad, -⟩
      · show 0 < (w.native.rtcCreateDataChannelEx c.inner failure).1
        rw [hcode]
        exact Tables.nextId_pos
      · exact absurd (hgood c hk) hbad

theorem allPositive_onDataChannel {w : World} (h : AllPositive w) (k : Nat) :
    AllPositive (w.onDataChannel k).1 := by
  unfold World.onDataChannel
  cases hk : w.connections[k]? with
  | none => exact h
  | some c =>
      dsimp only
      split
      · exact (allPositive_push h hk).mpr Tables.nextId_pos
      · exact h

/-- **One step.** -/
theorem expected_iff {w : World} (h : AllPositive w) (a : Act) :
    (Expected w a ↔ Good w a) ∧ (Good w a → AllPositive (step w a).1) := by
  have hpositive : Good w a → AllPositive (step w a).1 := by
    intro hgood
    cases a with
    | init => exact h
    | finalize => exact h
    | new args failure => exact allPositive_new h args failure
    | createDatachannel k failure => exact allPositive_createDatachannel h hgood
    | createDatachannelWithOptions k failure => exact allPositive_createDatachannel h hgood
    | onDataChannel k => exact allPositive_onDataChannel h k
  refine ⟨⟨?_, fun hgood => ⟨hpositive hgood, ?_⟩⟩, hpositive⟩
  · intro hexp
    cases a with
    | new args failure => exact (expectedNew_iff w args failure).mp hexp.2
    | createDatachannel k failure => exact (expectedChannel_iff w k failure).mp hexp.2
    | createDatachannelWithOptions k failure => exact (expectedChannel_iff w k failure).mp hexp.2
    | _ => trivial
  · cases a with
    | new args failure => exact (expectedNew_iff w args failure).mpr hgood
    | createDatachannel k failure => exact (expectedChannel_iff w k failure).mpr hgood
    | createDatachannelWithOptions k failure => exact (expectedChannel_iff w k failure).mpr hgood
    | _ => trivial

end HxDatachannel.Create
