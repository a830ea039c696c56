import HxDatachannel.IceServer.Parts

/-!
# `IceServer.Agree` — which URLs mean the same in both backends

The browser reads what the JS constructor made of a URL, libdatachannel the URL itself. `Plain` says for which
URLs the two denote the same server: `urls_alike`.
-/

namespace HxDatachannel.Ice

open Span

/-! ## Both readings of one URL -/

section Alike

variable (ipLiteral : Bytes → Bool)

/-- The scheme is written, without slashes behind it, and user and address are plain. -/
def Plain (u : Url) : Prop :=
  ∃ scheme ∈ u.scheme, ∃ type relay, schemeType scheme = some (type, relay) ∧ u.slashes = 0 ∧
    PlainUserinfo type u.userinfo ∧ PlainAddress ipLiteral type (relay = .TurnTls) u

theorem iceServer_eq_some {url : Bytes} {server : IceServer} (h : iceServer url = some server) :
    ∃ u type relay n, matchUrl url = some u ∧ u.host ≠ [] ∧
      schemeType ((group u.scheme).getD (ascii "stun")) = some (type, relay) ∧
      stoul ((group u.port).getD (if relayTypeOf relay (group u.query) = .TurnTls then ascii "5349"
        else ascii "3478")) = some n ∧
      server = { hostname := hostnameOf u.host, port := n % 2 ^ 16, type,
                 relayType := relayTypeOf relay (group u.query),
                 username := url_decode ((group (u.userinfo.map Prod.fst)).getD []),
                 password := url_decode ((group (u.userinfo.bind Prod.snd)).getD []) } := by
  obtain ⟨u, hfilter, h⟩ := Option.bind_eq_some_iff.mp h
  obtain ⟨hu, hne⟩ := Option.filter_eq_some_iff.mp hfilter
  obtain ⟨⟨type, relay⟩, htype, h⟩ := Option.bind_eq_some_iff.mp h
  obtain ⟨n, hn, h⟩ := Option.bind_eq_some_iff.mp h
  exact ⟨u, type, relay, n, hu, of_decide_eq_true hne, htype, hn, (Option.some.inj h).symm⟩

theorem browserServer_eq_some {s rest : Bytes} {username credential : Option Bytes} {type : ServerType}
    {secure : Bool} {server : Server} (hs : colon ∉ s) (hscheme : browserScheme s = some (type, secure)) :
    browserServer ipLiteral { urls := s ++ colon :: rest, username, credential } = some server ↔
      readAddress ipLiteral type secure rest = some (server.host, server.port, server.transport) ∧
      server.type = type ∧ (type = .Turn → username ≠ none ∧ credential ≠ none) ∧
      server.username = username.getD [] ∧ server.password = credential.getD [] := by
  have heq : browserServer ipLiteral { urls := s ++ colon :: rest, username, credential } =
      (readAddress ipLiteral type secure rest).bind fun a =>
        if type = .Turn ∧ (username = none ∨ credential = none) then none
        else some { type, host := a.1, port := a.2.1, transport := a.2.2, username := username.getD [],
                    password := credential.getD [] } := by
    rw [browserServer]
    simp only [takeWhile_colon hs, dropWhile_colon hs, eat_cons, hscheme]
    rfl
  rw [heq, Option.bind_eq_some_iff]
  constructor
  · rintro ⟨⟨host, port, transport⟩, haddress, hif⟩
    obtain ⟨hneeds, hserver⟩ := Option.ite_none_left_eq_some.mp hif
    obtain rfl := Option.some.inj hserver
    refine ⟨haddress, rfl, ?_, rfl, rfl⟩
    intro hturn
    exact ⟨fun hnone => hneeds ⟨hturn, .inl hnone⟩, fun hnone => hneeds ⟨hturn, .inr hnone⟩⟩
  · rintro ⟨haddress, rfl, hneeds, husername, hpassword⟩
    refine ⟨_, haddress, Option.ite_none_left_eq_some.mpr ⟨?_, ?_⟩⟩
    · rintro ⟨hturn, hnone | hnone⟩
      · exact (hneeds hturn).1 hnone
      · exact (hneeds hturn).2 hnone
    · rw [← husername, ← hpassword]

/-- The browser needs a scheme that libdatachannel reads as one. -/
theorem browserServer_scheme {entry : RTCIceServer} {server : Server}
    (h : browserServer ipLiteral entry = some server) :
    ∃ s rest x, entry.urls = s ++ colon :: rest ∧ entry.urls.takeWhile (· ≠ colon) = s ∧
      browserScheme s = some x := by
  obtain ⟨x, hx, h⟩ := Option.bind_eq_some_iff.mp h
  obtain ⟨rest, hrest, -⟩ := Option.bind_eq_some_iff.mp h
  refine ⟨_, rest, x, ?_, rfl, hx⟩
  rw [← eat_eq_some.mp hrest, List.takeWhile_append_dropWhile]

theorem readAddress_slash {type : ServerType} {secure : Bool} (rest : Bytes) :
    readAddress ipLiteral type secure (slash :: rest) = none := by
  have hhost : readHost ipLiteral (slash :: rest) = some ([], slash :: rest) := by
    rw [readHost, eat_eq_none.mpr (by simp [slash, openBracket])]
    simp only [List.takeWhile_cons_of_neg (show ¬regNameChar slash = true by decide),
      List.dropWhile_cons_of_neg (show ¬regNameChar slash = true by decide)]
    rfl
  have hport : Span.optional colon isDigit (slash :: rest) = (none, slash :: rest) := by
    rw [Span.optional, eat_eq_none.mpr (by simp [slash, colon])]
  rw [readAddress, hhost, Option.bind_eq_bind, Option.bind_some]
  simp only [hport]
  have ht : readTransport type secure (slash :: rest) = none := by
    rw [readTransport, if_neg fun h => absurd h.1 (by decide)]
  rw [ht]
  cases readPort secure none <;> rfl

/-- The text before the host, where there is a user. -/
theorem text_user {u : Url} {user : Bytes} {password : Option Bytes}
    (huser : u.userinfo = some (user, password)) :
    u.text = schemeText u.scheme ++ (List.replicate u.slashes slash ++ user ++
      optionalText colon password ++ atSign :: u.hostText) := by
  simp [Url.text, Url.slashText, Url.userText, huser, userinfoText]

theorem not_mem_user {u : Url} {user : Bytes} {password : Option Bytes} (hu : u.WellFormed)
    (huser : u.userinfo = some (user, password)) :
    (colon ∉ List.replicate u.slashes slash ++ user) ∧
    (atSign ∉ List.replicate u.slashes slash ++ user) ∧ ∀ pass ∈ password, atSign ∉ pass := by
  have hslash : ∀ c ∈ List.replicate u.slashes slash, c = slash := fun c hc => List.eq_of_mem_replicate hc
  refine ⟨?_, ?_, ?_⟩
  · intro hmem
    rcases List.mem_append.mp hmem with hmem | hmem
    · exact absurd (hslash _ hmem) (by decide)
    · exact absurd (hu.user _ huser _ hmem) (by decide)
  · intro hmem
    rcases List.mem_append.mp hmem with hmem | hmem
    · exact absurd (hslash _ hmem) (by decide)
    · exact absurd (hu.user _ huser _ hmem) (by decide)
  · intro pass hpass hmem
    exact absurd (hu.password _ huser pass hpass _ hmem) (by decide)

theorem not_mem_userinfo {u : Url} {user : Bytes} {password : Option Bytes} (hu : u.WellFormed)
    (huser : u.userinfo = some (user, password)) :
    atSign ∉ List.replicate u.slashes slash ++ user ++ optionalText colon password := by
  obtain ⟨-, huser', hpass⟩ := not_mem_user hu huser
  intro hmem
  rcases List.mem_append.mp hmem with hmem | hmem
  · exact huser' hmem
  · cases password with
    | none => exact absurd hmem (by simp [optionalText])
    | some pass =>
        rcases List.mem_cons.mp hmem with hmem | hmem
        · exact absurd hmem (by decide)
        · exact hpass pass rfl hmem

theorem not_mem_text {u : Url} (hu : u.WellFormed) (huser : u.userinfo = none)
    (hscheme : ∀ s ∈ u.scheme, atSign ∉ s) : atSign ∉ u.text := by
  have htext : u.text = schemeText u.scheme ++ (List.replicate u.slashes slash ++ u.hostText) := by
    simp [Url.text, Url.slashText, Url.userText, huser, userinfoText]
  rw [htext]
  intro hmem
  rcases List.mem_append.mp hmem with hmem | hmem
  · cases hs : u.scheme with
    | none =>
        rw [hs] at hmem
        exact absurd hmem (by simp [schemeText])
    | some s =>
        rw [hs] at hmem
        rcases List.mem_append.mp hmem with hmem | hmem
        · exact hscheme s hs hmem
        · exact absurd hmem (by decide)
  · rcases List.mem_append.mp hmem with hmem | hmem
    · exact absurd (List.eq_of_mem_replicate hmem) (by decide)
    · exact hu.userinfo_none huser hmem

/-- The entry made of a URL with a user. -/
theorem properServer_user {u : Url} {s user : Bytes} {password : Option Bytes} (hu : u.WellFormed)
    (hs : u.scheme = some s) (hcolon : colon ∉ s) (hat : atSign ∉ s)
    (huser : u.userinfo = some (user, password)) :
    properServer u.text =
      { urls := s ++ colon :: u.hostText, username := some (List.replicate u.slashes slash ++ user),
        credential := password.map fun pass => pass.takeWhile (· ≠ colon) } := by
  have htext : u.text = s ++ colon :: (List.replicate u.slashes slash ++ user ++
      optionalText colon password ++ atSign :: u.hostText) := by
    rw [text_user huser, hs, schemeText, List.append_assoc, List.singleton_append]
  obtain ⟨hsplit₀, hsplit₁⟩ := splitOn_userinfo (not_mem_user hu huser).1 password
  rw [htext, properServer_credentials hcolon hat (not_mem_userinfo hu huser), hsplit₀, hsplit₁]

/-- Without a scheme the browser reads nothing. -/
theorem browserServer_no_scheme {u : Url} (hu : u.WellFormed) (hne : u.host ≠ [])
    (hscheme : u.scheme = none) : browserServer ipLiteral (properServer u.text) = none := by
  have htext : u.text = u.slashText := by rw [Url.text, hscheme, schemeText, List.nil_append]
  have hread := hu.scheme_none hscheme
  rw [← htext] at hread
  by_contra hsome
  obtain ⟨server, hserver⟩ := Option.ne_none_iff_exists'.mp hsome
  obtain ⟨s, rest, x, hurls, htake, hx⟩ := browserServer_scheme ipLiteral hserver
  -- what the browser takes as the scheme cannot begin the URL
  have hbegin : ∀ rest', u.text ≠ s ++ colon :: rest' := fun rest' he => by
    rw [he, readScheme_of_browserScheme hx rest'] at hread
    exact absurd (congrArg Prod.fst hread) (by simp)
  cases huser : u.userinfo with
  | none =>
      have hat : atSign ∉ u.text := not_mem_text hu huser fun s hs => absurd (hscheme ▸ hs) (by simp)
      rw [properServer_of_not_mem hat] at hurls
      exact hbegin rest hurls
  | some p =>
      obtain ⟨user, password⟩ := p
      obtain ⟨hcolon, hat, hpass⟩ := not_mem_user hu huser
      have htext' := text_user huser
      rw [hscheme, schemeText, List.nil_append] at htext'
      cases password with
      | none =>
          rw [optionalText, List.append_nil] at htext'
          have hhost : u.hostText ≠ [] := fun h => hne (List.append_eq_nil_iff.mp h).1
          have hmem := properServer_no_colon hcolon hat hhost
          rw [← htext', htake] at hmem
          exact absurd ((forall_of_browserScheme hx).2 atSign hmem) (by decide)
      | some pass =>
          have htext'' : u.text = (List.replicate u.slashes slash ++ user) ++
              colon :: (pass ++ atSign :: u.hostText) := by
            rw [htext', optionalText]
            simp
          rw [htext'', properServer_credentials hcolon hat (hpass pass rfl)] at htake
          rw [takeWhile_colon hcolon] at htake
          exact hbegin _ (htake ▸ htext'')

theorem plain_iff {u : Url} {s : Bytes} {type : ServerType} {relay : RelayType} (hs : u.scheme = some s)
    (htype : schemeType s = some (type, relay)) :
    Plain ipLiteral u ↔ u.slashes = 0 ∧ PlainUserinfo type u.userinfo ∧
      PlainAddress ipLiteral type (relay = .TurnTls) u := by
  constructor
  · rintro ⟨s', hs', type', relay', htype', hplain⟩
    obtain rfl : s = s' := Option.some.inj (hs.symm.trans hs')
    obtain ⟨rfl, rfl⟩ := Prod.mk.inj (Option.some.inj (htype.symm.trans htype'))
    exact hplain
  · intro hplain
    exact ⟨s, hs, type, relay, htype, hplain⟩

/-- What the browser makes of a URL without a user. -/
theorem browserServer_no_user {u : Url} {s : Bytes} {type : ServerType} {secure : Bool} {server : Server}
    (hu : u.WellFormed) (hs : u.scheme = some s) (hcolon : colon ∉ s) (hat : atSign ∉ s)
    (hbrowser : browserScheme s = some (type, secure)) (huser : u.userinfo = none) :
    browserServer ipLiteral (properServer u.text) = some server ↔
      readAddress ipLiteral type secure u.hostText = some (server.host, server.port, server.transport) ∧
      u.slashes = 0 ∧ type = .Stun ∧ server.type = type ∧ server.username = [] ∧ server.password = [] := by
  have hnot : atSign ∉ u.text := not_mem_text hu huser fun s' hs' => by
    rwa [← Option.some.inj (hs.symm.trans hs')]
  have htext : u.text = s ++ colon :: u.slashText := by
    rw [Url.text, hs, schemeText, List.append_assoc, List.singleton_append]
  have hslash : u.slashText = List.replicate u.slashes slash ++ u.hostText := by
    rw [Url.slashText, Url.userText, huser, userinfoText, List.nil_append]
  rw [properServer_of_not_mem hnot, htext, browserServer_eq_some ipLiteral hcolon hbrowser, hslash]
  constructor
  · rintro ⟨hread, htype, hneeds, husername, hpassword⟩
    have hstun : type = .Stun := by
      cases type with
      | Stun => rfl
      | Turn => exact absurd rfl (hneeds rfl).1
    have hzero : u.slashes = 0 := by
      cases hn : u.slashes with
      | zero => rfl
      | succ n =>
          rw [hn, List.replicate_succ, List.cons_append, readAddress_slash] at hread
          exact absurd hread (by simp)
    rw [hzero] at hread
    exact ⟨hread, hzero, hstun, htype, husername, hpassword⟩
  · rintro ⟨hread, hzero, rfl, htype, husername, hpassword⟩
    refine ⟨?_, htype, fun hturn => absurd hturn (by decide), husername, hpassword⟩
    rw [hzero]
    exact hread

/-- What the browser makes of a URL with a user. -/
theorem browserServer_user {u : Url} {s user : Bytes} {password : Option Bytes} {type : ServerType}
    {secure : Bool} {server : Server} (hu : u.WellFormed) (hs : u.scheme = some s) (hcolon : colon ∉ s)
    (hat : atSign ∉ s) (hbrowser : browserScheme s = some (type, secure))
    (huser : u.userinfo = some (user, password)) :
    browserServer ipLiteral (properServer u.text) = some server ↔
      readAddress ipLiteral type secure u.hostText = some (server.host, server.port, server.transport) ∧
      server.type = type ∧ (type = .Turn → password ≠ none) ∧
      server.username = List.replicate u.slashes slash ++ user ∧
      server.password = (password.map fun pass => pass.takeWhile (· ≠ colon)).getD [] := by
  rw [properServer_user hu hs hcolon hat huser, browserServer_eq_some ipLiteral hcolon hbrowser]
  have hneeds : (type = .Turn → some (List.replicate u.slashes slash ++ user) ≠ none ∧
      (password.map fun pass => pass.takeWhile (· ≠ colon)) ≠ none) ↔
      (type = .Turn → password ≠ none) := by
    simp
  rw [hneeds]
  rfl

/-- libdatachannel and the browser find the same password iff there is no escape and no colon in it. -/
theorem credential_alike (password : Option Bytes) :
    url_decode ((group password).getD []) = (password.map fun pass => pass.takeWhile (· ≠ colon)).getD [] ↔
      ∀ pass ∈ password, escaped pass = false ∧ colon ∉ pass := by
  rw [group_getD]
  cases password with
  | none => exact iff_of_true rfl fun pass hpass => absurd hpass (by simp)
  | some pass =>
      refine eq_comm.trans ((password_alike pass).trans ?_)
      exact ⟨fun hplain pass' hpass' => Option.some.inj hpass' ▸ hplain, fun hplain => hplain pass rfl⟩

/-- **URLs that mean the same.** Of a URL that libdatachannel accepts, the browser reads from the entry that
    the JS backend makes the same server, user and password iff the URL is plain. -/
theorem urls_alike {url : Bytes} {server : IceServer} (h : iceServer url = some server) :
    browserServer ipLiteral (properServer url) = some server.server ↔
      ∃ u ∈ matchUrl url, Plain ipLiteral u := by
  obtain ⟨u, type, relay, n, hu, hne, htype, hn, rfl⟩ := iceServer_eq_some h
  have hwf := wellFormed_matchUrl hu
  obtain rfl := text_matchUrl hu
  rw [hu]
  have hexists : (∃ u' ∈ some u, Plain ipLiteral u') ↔ Plain ipLiteral u :=
    ⟨fun ⟨u', hu', hplain⟩ => Option.some.inj hu' ▸ hplain, fun hplain => ⟨u, rfl, hplain⟩⟩
  rw [hexists]
  cases hs : u.scheme with
  | none =>
      rw [browserServer_no_scheme ipLiteral hwf hne hs]
      apply iff_of_false (by simp)
      rintro ⟨s, hs', -⟩
      rw [hs] at hs'
      exact absurd hs' (by simp)
  | some s =>
      obtain ⟨hsne, hsall⟩ := hwf.scheme s hs
      have hcolon : colon ∉ s := fun hmem => absurd (hsall colon hmem) (by decide)
      have hat : atSign ∉ s := fun hmem => absurd (hsall atSign hmem) (by decide)
      rw [hs, group_some hsne, Option.getD_some] at htype
      have hbrowser := browserScheme_of_schemeType htype
      have hrelay : relay = if decide (relay = .TurnTls) then .TurnTls else .TurnUdp := by
        obtain ⟨-, -, rfl⟩ | ⟨-, -, rfl⟩ | ⟨-, -, rfl⟩ := schemeType_cases htype <;> rfl
      have haddress : _ ↔ PlainAddress ipLiteral type (relay = .TurnTls) u :=
        address_alike ipLiteral hwf hne hrelay hn
      rw [plain_iff ipLiteral hs htype, ← haddress]
      cases huser : u.userinfo with
      | none =>
          rw [browserServer_no_user ipLiteral hwf hs hcolon hat hbrowser huser]
          constructor
          · rintro ⟨hread, hzero, hstun, -⟩
            exact ⟨hzero, hstun, hread⟩
          · rintro ⟨hzero, hstun, hread⟩
            exact ⟨hread, hzero, hstun, rfl, rfl, rfl⟩
      | some p =>
          obtain ⟨user, password⟩ := p
          rw [browserServer_user ipLiteral hwf hs hcolon hat hbrowser huser]
          have husername : url_decode ((group (some user)).getD []) =
              List.replicate u.slashes slash ++ user ↔ u.slashes = 0 ∧ escaped user = false := by
            rw [group_getD]
            exact eq_comm.trans (user_alike u.slashes user)
          constructor
          · rintro ⟨hread, -, hturn, hname, hpass⟩
            obtain ⟨hzero, hescaped⟩ := husername.mp hname
            exact ⟨hzero, ⟨hescaped, hturn, (credential_alike password).mp hpass⟩, hread⟩
          · rintro ⟨hzero, ⟨hescaped, hturn, hpass⟩, hread⟩
            exact ⟨hread, rfl, hturn, husername.mpr ⟨hzero, hescaped⟩, (credential_alike password).mpr hpass⟩

end Alike

/-- The TURN server of the README, in its parts. -/
def turnUrl : Url :=
  { scheme := some (ascii "turn"), slashes := 0,
    userinfo := some (ascii "username", some (ascii "password")), host := ascii "turn.myturnserver.org",
    port := none, path := [], query := none, fragment := none }

theorem plain_turnUrl (ipLiteral : Bytes → Bool) : Plain ipLiteral turnUrl := by
  refine ⟨ascii "turn", rfl, .Turn, .TurnUdp, by decide, rfl, ?_, ?_⟩
  · refine ⟨by decide, fun _ => by decide, ?_⟩
    rintro _ ⟨⟩
    exact ⟨by decide, by decide⟩
  · exact
      { host := .inl ⟨List.all_eq_true.mp (by decide), by decide⟩
        port := fun p hp => absurd hp (by simp [turnUrl])
        path := rfl
        query := fun q hq => absurd hq (by simp [turnUrl])
        fragment := rfl }

theorem urls_alike_turn :
    browserServer (fun _ => false) (properServer (ascii "turn:username:password@turn.myturnserver.org")) =
      some ⟨.Turn, ascii "turn.myturnserver.org", 3478, .udp, ascii "username", ascii "password"⟩ :=
  have haccepted : iceServer (ascii "turn:username:password@turn.myturnserver.org") =
      some ⟨ascii "turn.myturnserver.org", 3478, .Turn, ascii "username", ascii "password", .TurnUdp⟩ := by
    decide +kernel
  (urls_alike (fun _ => false) haccepted).mpr ⟨turnUrl, by decide +kernel, plain_turnUrl _⟩

/-- **URLs that differ.** A colon in the password, an escape in the user, and no scheme: libdatachannel accepts
    all three, and the browser reads another password, another user, and nothing. -/
theorem urls_differ :
    ((iceServer (ascii "turn:user:pa:ss@host")).map (·.password) = some (ascii "pa:ss") ∧
      (browserServer (fun _ => false) (properServer (ascii "turn:user:pa:ss@host"))).map (·.password) =
        some (ascii "pa")) ∧
    ((iceServer (ascii "turn:us%40er:pw@host")).map (·.username) = some (ascii "us@er") ∧
      (browserServer (fun _ => false) (properServer (ascii "turn:us%40er:pw@host"))).map (·.username) =
        some (ascii "us%40er")) ∧
    ((iceServer (ascii "host")).map (·.hostname) = some (ascii "host") ∧
      browserServer (fun _ => false) (properServer (ascii "host")) = none) :=
  ⟨by decide, by decide, by decide⟩

end HxDatachannel.Ice
