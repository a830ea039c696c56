import HxDatachannel.Base.Span
import HxDatachannel.Binding.Payload

/-!
# `IceServer.Url` — the URL grammar of libdatachannel

`parse_url` matches an ICE server URL against one regular expression. Every repetition in it is over a class
of characters that does not contain the character that comes next, so the longest match is found by reading
the URL once from left to right, and each part is as long as it can be: `matchUrl`. The parts and the URL
determine each other (`text_matchUrl`, `matchUrl_text`).

URLs are given by their UTF-8 bytes; all characters that the code looks for are ASCII.
-/

namespace HxDatachannel.Ice

open Span

/-! ## Characters -/

def percent  : UInt8 := 37
def dot      : UInt8 := 46
def slash    : UInt8 := 47
def colon    : UInt8 := 58
def question : UInt8 := 63
def atSign   : UInt8 := 64
def hash     : UInt8 := 35

/-- `[^:.@/?#]` -/
def schemeChar (c : UInt8) : Bool := c ∉ [colon, dot, atSign, slash, question, hash]

/-- `[^:@]` -/
def userChar (c : UInt8) : Bool := c ∉ [colon, atSign]

/-- `[^@]` -/
def passwordChar (c : UInt8) : Bool := c ≠ atSign

/-- `[^:/?#]` -/
def hostChar (c : UInt8) : Bool := c ∉ [colon, slash, question, hash]

/-- `[^/?#]` -/
def portChar (c : UInt8) : Bool := c ∉ [slash, question, hash]

/-- `[^?#]` -/
def pathChar (c : UInt8) : Bool := c ∉ [question, hash]

/-- `[^#]` -/
def queryChar (c : UInt8) : Bool := c ≠ hash

/-- `.`, which stands for every character but NUL. -/
def fragmentChar (c : UInt8) : Bool := c ≠ 0

/-! ## The parts of a URL -/

/-- What the groups of the regular expression match. -/
structure Url where
  scheme   : Option Bytes
  slashes  : Nat
  /-- The user, and the password if there is a colon. -/
  userinfo : Option (Bytes × Option Bytes)
  host     : Bytes
  port     : Option Bytes
  path     : Bytes
  query    : Option Bytes
  fragment : Option Bytes
deriving DecidableEq, Repr

/-- `(([^:.@/?#]+):)?` -/
def readScheme (url : Bytes) : Option Bytes × Bytes :=
  match eat colon (url.dropWhile schemeChar) with
  | some rest => if url.takeWhile schemeChar = [] then (none, url)
                 else (some (url.takeWhile schemeChar), rest)
  | none      => (none, url)

/-- `/{0,2}` -/
def readSlashes (s : Bytes) : Nat × Bytes :=
  match eat slash s with
  | some rest =>
      match eat slash rest with
      | some rest' => (2, rest')
      | none       => (1, rest)
  | none => (0, s)

/-- `((([^:@]*)(:([^@]*))?)@)?`, as the user with the password behind a colon. -/
def readUserinfo (s : Bytes) : Option (Bytes × Option Bytes) × Bytes :=
  let password := optional colon passwordChar (s.dropWhile userChar)
  match eat atSign password.2 with
  | some rest => (some (s.takeWhile userChar, password.1), rest)
  | none      => (none, s)

/-- `parse_url`: the match of the whole expression. Only a fragment can make it fail, with a NUL. -/
def matchUrl (url : Bytes) : Option Url :=
  let scheme   := readScheme url
  let slashes  := readSlashes scheme.2
  let userinfo := readUserinfo slashes.2
  let port     := optional colon portChar (userinfo.2.dropWhile hostChar)
  let query    := optional question queryChar (port.2.dropWhile pathChar)
  let fragment := optional hash fragmentChar query.2
  if fragment.2 = [] then
    some { scheme := scheme.1, slashes := slashes.1, userinfo := userinfo.1,
           host := userinfo.2.takeWhile hostChar, port := port.1, path := port.2.takeWhile pathChar,
           query := query.1, fragment := fragment.1 }
  else none

/-- What is left of a URL before each part that is read: `url`, `s₁`, …, `s₅` and nothing. -/
structure Reads (url : Bytes) (u : Url) (s₁ s₂ s₃ s₄ s₅ : Bytes) : Prop where
  scheme   : readScheme url = (u.scheme, s₁)
  slashes  : readSlashes s₁ = (u.slashes, s₂)
  userinfo : readUserinfo s₂ = (u.userinfo, s₃)
  host     : u.host = s₃.takeWhile hostChar
  port     : optional colon portChar (s₃.dropWhile hostChar) = (u.port, s₄)
  path     : u.path = s₄.takeWhile pathChar
  query    : optional question queryChar (s₄.dropWhile pathChar) = (u.query, s₅)
  fragment : optional hash fragmentChar s₅ = (u.fragment, [])

theorem matchUrl_eq_some {url : Bytes} {u : Url} :
    matchUrl url = some u ↔ ∃ s₁ s₂ s₃ s₄ s₅, Reads url u s₁ s₂ s₃ s₄ s₅ := by
  constructor
  · intro h
    simp only [matchUrl, Option.ite_none_right_eq_some, Option.some.injEq] at h
    obtain ⟨hrest, rfl⟩ := h
    exact ⟨_, _, _, _, _, rfl, rfl, rfl, rfl, rfl, rfl, rfl, Prod.ext rfl hrest⟩
  · rintro ⟨s₁, s₂, s₃, s₄, s₅, hscheme, hslashes, huser, hhost, hport, hpath, hquery, hfragment⟩
    simp only [matchUrl, hscheme, hslashes, huser, hport, hquery, hfragment, if_pos, ← hhost, ← hpath]

/-! ## The text of the parts -/

def schemeText : Option Bytes → Bytes
  | some s => s ++ [colon]
  | none   => []

def userinfoText : Option (Bytes × Option Bytes) → Bytes
  | some (user, password) => user ++ optionalText colon password ++ [atSign]
  | none                  => []

namespace Url

variable (u : Url)

/-- The text from the fragment on; from the query on; and so on, to the text of the whole URL. -/
def fragmentText : Bytes := optionalText hash u.fragment
def queryText : Bytes := optionalText question u.query ++ u.fragmentText
def pathText : Bytes := u.path ++ u.queryText
def portText : Bytes := optionalText colon u.port ++ u.pathText
def hostText : Bytes := u.host ++ u.portText
def userText : Bytes := userinfoText u.userinfo ++ u.hostText
def slashText : Bytes := List.replicate u.slashes slash ++ u.userText
def text : Bytes := schemeText u.scheme ++ u.slashText

/-- Each part is of its class, and is as long as it can be. -/
structure WellFormed : Prop where
  scheme        : ∀ s ∈ u.scheme, s ≠ [] ∧ ∀ c ∈ s, schemeChar c = true
  scheme_none   : u.scheme = none → readScheme u.slashText = (none, u.slashText)
  slashes       : u.slashes ≤ 2
  slashes_lt    : u.slashes < 2 → u.userText.head? ≠ some slash
  user          : ∀ p ∈ u.userinfo, ∀ c ∈ p.1, userChar c = true
  password      : ∀ p ∈ u.userinfo, ∀ pass ∈ p.2, ∀ c ∈ pass, passwordChar c = true
  userinfo_none : u.userinfo = none → atSign ∉ u.hostText
  host          : ∀ c ∈ u.host, hostChar c = true
  host_stops    : Stops hostChar u.portText
  port          : ∀ p ∈ u.port, ∀ c ∈ p, portChar c = true
  port_stops    : Stops portChar u.pathText
  port_none     : u.port = none → u.pathText.head? ≠ some colon
  path          : ∀ c ∈ u.path, pathChar c = true
  path_stops    : Stops pathChar u.queryText
  query_none    : u.query = none → u.fragmentText.head? ≠ some question
  query         : ∀ q ∈ u.query, ∀ c ∈ q, queryChar c = true
  query_stops   : Stops queryChar u.fragmentText
  fragment      : ∀ f ∈ u.fragment, ∀ c ∈ f, fragmentChar c = true

end Url

theorem readScheme_text (url : Bytes) : schemeText (readScheme url).1 ++ (readScheme url).2 = url := by
  unfold readScheme
  split
  · rename_i rest h
    split
    · rfl
    · show url.takeWhile schemeChar ++ [colon] ++ rest = url
      rw [List.append_assoc, List.singleton_append, ← eat_eq_some.mp h,
        List.takeWhile_append_dropWhile]
  · rfl

theorem readSlashes_text (s : Bytes) :
    List.replicate (readSlashes s).1 slash ++ (readSlashes s).2 = s := by
  unfold readSlashes
  split
  · rename_i rest h
    rw [eat_eq_some.mp h]
    split
    · rename_i rest' h'
      rw [eat_eq_some.mp h']
      rfl
    · rfl
  · rfl

theorem readUserinfo_text (s : Bytes) :
    userinfoText (readUserinfo s).1 ++ (readUserinfo s).2 = s := by
  have htext := optional_text colon passwordChar (s.dropWhile userChar)
  simp only [readUserinfo]
  split
  · rename_i rest h
    rw [eat_eq_some.mp h] at htext
    show s.takeWhile userChar ++ _ ++ [atSign] ++ rest = s
    rw [List.append_assoc, List.append_assoc, List.singleton_append, htext,
      List.takeWhile_append_dropWhile]
  · rfl

/-- What is left where a part has been read is the text from the next part on. -/
theorem Reads.texts {url : Bytes} {u : Url} {s₁ s₂ s₃ s₄ s₅ : Bytes}
    (h : Reads url u s₁ s₂ s₃ s₄ s₅) :
    u.text = url ∧ u.slashText = s₁ ∧ u.userText = s₂ ∧ u.hostText = s₃ ∧
      u.portText = s₃.dropWhile hostChar ∧ u.pathText = s₄ ∧ u.queryText = s₄.dropWhile pathChar ∧
      u.fragmentText = s₅ := by
  have hfragment : u.fragmentText = s₅ := by
    have htext := optional_text hash fragmentChar s₅
    rwa [h.fragment, List.append_nil] at htext
  have hquery : u.queryText = s₄.dropWhile pathChar := by
    have htext := optional_text question queryChar (s₄.dropWhile pathChar)
    rwa [h.query, ← hfragment] at htext
  have hpath : u.pathText = s₄ := by
    rw [Url.pathText, hquery, h.path, List.takeWhile_append_dropWhile]
  have hport : u.portText = s₃.dropWhile hostChar := by
    have htext := optional_text colon portChar (s₃.dropWhile hostChar)
    rwa [h.port, ← hpath] at htext
  have hhost : u.hostText = s₃ := by
    rw [Url.hostText, hport, h.host, List.takeWhile_append_dropWhile]
  have huser : u.userText = s₂ := by
    have htext := readUserinfo_text s₂
    rwa [h.userinfo, ← hhost] at htext
  have hslash : u.slashText = s₁ := by
    have htext := readSlashes_text s₁
    rwa [h.slashes, ← huser] at htext
  have htext : u.text = url := by
    have htext := readScheme_text url
    rwa [h.scheme, ← hslash] at htext
  exact ⟨htext, hslash, huser, hhost, hport, hpath, hquery, hfragment⟩

/-- **Nothing is dropped.** The parts of a URL make up the URL. -/
theorem text_matchUrl {url : Bytes} {u : Url} (h : matchUrl url = some u) : u.text = url := by
  obtain ⟨s₁, s₂, s₃, s₄, s₅, hreads⟩ := matchUrl_eq_some.mp h
  exact hreads.texts.1

/-! ## The parts are well formed -/

theorem readScheme_forall {url s rest : Bytes} (h : readScheme url = (some s, rest)) :
    s ≠ [] ∧ ∀ c ∈ s, schemeChar c = true := by
  unfold readScheme at h
  split at h
  · split at h
    · exact absurd (congrArg Prod.fst h) (by simp)
    · rename_i hne
      obtain rfl : url.takeWhile schemeChar = s := Option.some.inj (congrArg Prod.fst h)
      exact ⟨hne, forall_takeWhile url⟩
  · exact absurd (congrArg Prod.fst h) (by simp)

theorem readScheme_none {url rest : Bytes} (h : readScheme url = (none, rest)) : rest = url := by
  have htext := readScheme_text url
  rw [h] at htext
  exact htext

/-- A run of the right characters before the first colon is the scheme. -/
theorem readScheme_append {s rest : Bytes} (hne : s ≠ []) (hs : ∀ c ∈ s, schemeChar c = true) :
    readScheme (s ++ colon :: rest) = (some s, rest) := by
  have hstop : Stops schemeChar (colon :: rest) := stops_cons.mpr (by decide)
  rw [readScheme, dropWhile_append hs hstop, takeWhile_append hs hstop, eat_cons]
  exact if_neg hne

theorem readSlashes_spec (s : Bytes) :
    (readSlashes s).1 ≤ 2 ∧ ((readSlashes s).1 < 2 → (readSlashes s).2.head? ≠ some slash) := by
  unfold readSlashes
  split
  · split
    · exact ⟨Nat.le_refl 2, fun h => absurd h (Nat.lt_irrefl 2)⟩
    · rename_i hnone
      exact ⟨Nat.le_succ 1, fun _ => eat_eq_none.mp hnone⟩
  · rename_i hnone
    exact ⟨Nat.zero_le 2, fun _ => eat_eq_none.mp hnone⟩

theorem readSlashes_append {n : Nat} {rest : Bytes} (hn : n ≤ 2)
    (hrest : n < 2 → rest.head? ≠ some slash) :
    readSlashes (List.replicate n slash ++ rest) = (n, rest) := by
  obtain rfl | rfl | rfl : n = 0 ∨ n = 1 ∨ n = 2 := by omega
  · have hnone := eat_eq_none.mpr (hrest Nat.zero_lt_two)
    simp [readSlashes, hnone]
  · have hnone := eat_eq_none.mpr (hrest Nat.one_lt_two)
    simp [readSlashes, eat_cons, hnone]
  · simp [readSlashes, List.replicate, eat_cons]

theorem readUserinfo_forall {s rest : Bytes} {user : Bytes} {password : Option Bytes}
    (h : readUserinfo s = (some (user, password), rest)) :
    (∀ c ∈ user, userChar c = true) ∧ ∀ pass ∈ password, ∀ c ∈ pass, passwordChar c = true := by
  simp only [readUserinfo] at h
  split at h
  · obtain ⟨hp, -⟩ := Prod.mk.inj h
    obtain ⟨rfl, rfl⟩ := Prod.mk.inj (Option.some.inj hp)
    exact ⟨forall_takeWhile s, optional_forall⟩
  · exact absurd (congrArg Prod.fst h) (by simp)

/-- Behind the user, and the password if there is one, stands the first `@`. -/
theorem eat_of_mem_atSign {s : Bytes} (h : atSign ∈ s) :
    ∃ rest, eat atSign (Span.optional colon passwordChar (s.dropWhile userChar)).2 = some rest := by
  have hdrop : atSign ∈ s.dropWhile userChar := by
    rw [← List.takeWhile_append_dropWhile (p := userChar) (l := s), List.mem_append] at h
    exact h.resolve_left fun hmem => absurd (forall_takeWhile s _ hmem) (by decide)
  unfold Span.optional
  split
  · rename_i rest hrest
    rw [eat_eq_some.mp hrest] at hdrop
    have hmem : atSign ∈ rest := (List.mem_cons.mp hdrop).resolve_left (by decide)
    obtain ⟨a, rest', hsplit, ha⟩ := dropWhile_of_mem (p := passwordChar) hmem (by decide)
    have ha' : a = atSign := by simpa [passwordChar] using ha
    refine ⟨rest', ?_⟩
    show eat atSign (rest.dropWhile passwordChar) = _
    rw [hsplit, ha', eat_cons]
  · rename_i hnone
    obtain ⟨a, rest', hsplit, ha⟩ := dropWhile_of_mem (p := userChar) h (by decide)
    have ha' : a ≠ colon → a = atSign := by simpa [userChar] using ha
    rw [hsplit] at hnone ⊢
    have hcolon : a ≠ colon := fun he => eat_eq_none.mp hnone (congrArg some he)
    exact ⟨rest', by rw [ha' hcolon, eat_cons]⟩

/-- There is no user iff there is no `@`. -/
theorem readUserinfo_eq_none {s : Bytes} :
    (readUserinfo s).1 = none ↔ atSign ∉ s := by
  constructor
  · intro h hmem
    obtain ⟨rest, hrest⟩ := eat_of_mem_atSign hmem
    simp only [readUserinfo, hrest] at h
    exact absurd h (by simp)
  · intro hmem
    simp only [readUserinfo]
    split
    · rename_i rest hrest
      -- the `@` that was found is one of `s`
      have htext := optional_text colon passwordChar (s.dropWhile userChar)
      rw [eat_eq_some.mp hrest] at htext
      refine absurd ?_ hmem
      rw [← List.takeWhile_append_dropWhile (p := userChar) (l := s), ← htext]
      simp
    · rfl

theorem readUserinfo_none {s : Bytes} (h : atSign ∉ s) : readUserinfo s = (none, s) := by
  have hnone := readUserinfo_eq_none.mpr h
  have htext := readUserinfo_text s
  rw [hnone] at htext
  exact Prod.ext hnone htext

theorem readUserinfo_append {user : Bytes} {password : Option Bytes} {rest : Bytes}
    (huser : ∀ c ∈ user, userChar c = true)
    (hpassword : ∀ pass ∈ password, ∀ c ∈ pass, passwordChar c = true) :
    readUserinfo (userinfoText (some (user, password)) ++ rest) = (some (user, password), rest) := by
  have hstop : Stops userChar (optionalText colon password ++ atSign :: rest) := by
    cases password with
    | none => exact stops_cons.mpr (by decide)
    | some pass => exact stops_cons.mpr (by decide)
  have hpass : Span.optional colon passwordChar (optionalText colon password ++ atSign :: rest) =
      (password, atSign :: rest) :=
    optional_append (fun pass hp => ⟨hpassword pass hp, stops_cons.mpr (by decide)⟩)
      fun _ => by simp [atSign, colon]
  have htext : userinfoText (some (user, password)) ++ rest =
      user ++ (optionalText colon password ++ atSign :: rest) := by
    simp [userinfoText]
  rw [htext]
  simp only [readUserinfo, dropWhile_append huser hstop, takeWhile_append huser hstop, hpass, eat_cons]

/-- **What is read is well formed.** -/
theorem wellFormed_matchUrl {url : Bytes} {u : Url} (h : matchUrl url = some u) : u.WellFormed := by
  obtain ⟨s₁, s₂, s₃, s₄, s₅, hr⟩ := matchUrl_eq_some.mp h
  obtain ⟨htext, hslash, huser, hhost, hport, hpath, hquery, hfragment⟩ := hr.texts
  have hslashes := readSlashes_spec s₁
  rw [hr.slashes] at hslashes
  have hport_stops : Stops portChar (Span.optional colon portChar (s₃.dropWhile hostChar)).2 :=
    optional_stops (stops_dropWhile s₃) fun a ha hne => by
      have hends : a ≠ colon → a ≠ slash → a ≠ question → a = hash := by simpa [hostChar] using ha
      simpa [portChar] using hends hne
  have hquery_stops : Stops queryChar (Span.optional question queryChar (s₄.dropWhile pathChar)).2 :=
    optional_stops (stops_dropWhile s₄) fun a ha hne => by
      have hends : a ≠ question → a = hash := by simpa [pathChar] using ha
      simpa [queryChar] using hends hne
  have hnoAt : u.userinfo = none → atSign ∉ s₂ := fun hnone =>
    readUserinfo_eq_none.mp (by rw [hr.userinfo, hnone])
  exact
    { scheme := fun s hs => readScheme_forall (hr.scheme.trans (by rw [Option.mem_def.mp hs]))
      scheme_none := fun hnone => by
        have hscheme := hr.scheme
        rw [hnone] at hscheme
        have hs₁ := readScheme_none hscheme
        rw [hslash, hs₁, hscheme, hs₁]
      slashes := hslashes.1
      slashes_lt := fun hlt => huser ▸ hslashes.2 hlt
      user := fun p hp => (readUserinfo_forall (hr.userinfo.trans (by rw [Option.mem_def.mp hp]))).1
      password := fun p hp =>
        (readUserinfo_forall (hr.userinfo.trans (by rw [Option.mem_def.mp hp]))).2
      userinfo_none := fun hnone => by
        have hs₃ := readUserinfo_none (hnoAt hnone)
        rw [hr.userinfo, hnone] at hs₃
        rw [hhost, (Prod.mk.inj hs₃).2]
        exact hnoAt hnone
      host := fun c hc => forall_takeWhile s₃ c (hr.host ▸ hc)
      host_stops := hport ▸ stops_dropWhile s₃
      port := fun p hp => optional_forall p (by rw [hr.port]; exact hp)
      port_stops := by rwa [hr.port, ← hpath] at hport_stops
      port_none := fun hnone => by
        have hhead := optional_none (congrArg Prod.fst hr.port |>.trans hnone)
        rwa [hr.port, ← hpath] at hhead
      path := fun c hc => forall_takeWhile s₄ c (hr.path ▸ hc)
      path_stops := hquery ▸ stops_dropWhile s₄
      query_none := fun hnone => by
        have hhead := optional_none (congrArg Prod.fst hr.query |>.trans hnone)
        rwa [hr.query, ← hfragment] at hhead
      query := fun q hq => optional_forall q (by rw [hr.query]; exact hq)
      query_stops := by rwa [hr.query, ← hfragment] at hquery_stops
      fragment := fun f hf => optional_forall f (by rw [hr.fragment]; exact hf) }

/-- **Reading back.** Well-formed parts are the parts of their text. -/
theorem matchUrl_text {u : Url} (h : u.WellFormed) : matchUrl u.text = some u := by
  have hscheme : readScheme u.text = (u.scheme, u.slashText) := by
    cases hs : u.scheme with
    | none =>
        rw [Url.text, hs]
        exact h.scheme_none hs
    | some s =>
        obtain ⟨hne, hall⟩ := h.scheme s hs
        have htext : u.text = s ++ colon :: u.slashText := by simp [Url.text, hs, schemeText]
        rw [htext]
        exact readScheme_append hne hall
  have hslashes : readSlashes u.slashText = (u.slashes, u.userText) :=
    readSlashes_append h.slashes h.slashes_lt
  have huser : readUserinfo u.userText = (u.userinfo, u.hostText) := by
    cases hu : u.userinfo with
    | none =>
        have htext : u.userText = u.hostText := by rw [Url.userText, hu]; rfl
        rw [htext]
        exact readUserinfo_none (h.userinfo_none hu)
    | some p =>
        have htext : u.userText = userinfoText (some (p.1, p.2)) ++ u.hostText := by
          rw [Url.userText, hu]
        rw [htext]
        exact readUserinfo_append (h.user p hu) (h.password p hu)
  have hport : Span.optional colon portChar u.portText = (u.port, u.pathText) :=
    optional_append (fun p hp => ⟨h.port p hp, h.port_stops⟩) h.port_none
  have hquery : Span.optional question queryChar u.queryText = (u.query, u.fragmentText) :=
    optional_append (fun q hq => ⟨h.query q hq, h.query_stops⟩) h.query_none
  have hfragment : Span.optional hash fragmentChar u.fragmentText = (u.fragment, []) := by
    have hread : Span.optional hash fragmentChar (optionalText hash u.fragment ++ []) =
        (u.fragment, []) :=
      optional_append (fun f hf => ⟨h.fragment f hf, stops_nil⟩) fun _ => by simp
    rwa [List.append_nil] at hread
  refine matchUrl_eq_some.mpr
    ⟨u.slashText, u.userText, u.hostText, u.pathText, u.fragmentText, hscheme, hslashes, huser,
      ?_, ?_, ?_, ?_, hfragment⟩
  · exact (takeWhile_append h.host h.host_stops).symm
  · rw [Url.hostText, dropWhile_append h.host h.host_stops]
    exact hport
  · exact (takeWhile_append h.path h.path_stops).symm
  · rw [Url.pathText, dropWhile_append h.path h.path_stops]
    exact hquery

end HxDatachannel.Ice
