import HxDatachannel.IceServer.Defs

/-!
# `IceServer.Parts` — the parts of a URL in the two readings

What `url_decode` changes, what entry the JS constructor makes of a URL, and how far the browser gets in the text
behind the scheme. For each part there is the condition under which the two readings of it are the same:
`PlainHost`, `PlainPort`, `PlainQuery`, and together `address_alike`; `user_alike` and `password_alike`. The
parts of the URL are those of `matchUrl`, and each step of the browser's reading either takes exactly the next
part or ends the reading.
-/

namespace HxDatachannel.Ice

open Span

/-! ## Percent-encoding -/

theorem url_decode_length_le (s : Bytes) : (url_decode s).length ≤ s.length := by
  induction s using url_decode.induct with
  | case1 c a b rest v hv ih =>
      rw [url_decode, hv]
      simp only [List.length_cons]
      omega
  | case2 c a b rest hv ih =>
      rw [url_decode, hv]
      exact Nat.succ_le_succ ih
  | case3 rest hrest =>
      rw [url_decode.eq_2 rest hrest]

/-- Decoding changes exactly what has an escape in it. -/
theorem url_decode_eq_self (s : Bytes) : url_decode s = s ↔ escaped s = false := by
  induction s using url_decode.induct with
  | case1 c a b rest v hv ih =>
      rw [url_decode, hv, escaped, hv]
      have hle := url_decode_length_le rest
      refine iff_of_false ?_ (by simp)
      intro h
      -- the text got shorter
      have hlen : (v :: url_decode rest).length = (c :: a :: b :: rest).length := congrArg List.length h
      simp only [List.length_cons] at hlen
      omega
  | case2 c a b rest hv ih =>
      rw [url_decode, hv, escaped, hv]
      simpa using ih
  | case3 rest hrest =>
      rw [url_decode.eq_2 rest hrest, escaped.eq_2 rest hrest]
      exact iff_of_true rfl rfl

theorem url_decode_cons {c : UInt8} (hc : c ≠ percent) (s : Bytes) :
    url_decode (c :: s) = c :: url_decode s := by
  match s with
  | []            => rfl
  | [a]           => rfl
  | a :: b :: rest =>
      have hv : escapeValue c a b = none := if_neg hc
      rw [url_decode, hv]

/-! ## Splitting -/

theorem indexOf_eq_neg_one {s : Bytes} {c : UInt8} (h : c ∉ s) : indexOf s c = -1 := by
  have hnone : s.findIdx? (· == c) = none :=
    List.findIdx?_eq_none_iff.mpr fun x hx => by simpa using fun he : x = c => h (he ▸ hx)
  rw [indexOf, hnone]

theorem indexOf_append {s rest : Bytes} {c : UInt8} (h : c ∉ s) :
    indexOf (s ++ c :: rest) c = s.length := by
  have hsome : (s ++ c :: rest).findIdx? (· == c) = some s.length := by
    rw [List.findIdx?_append, List.findIdx?_eq_none_iff.mpr fun x hx => by
      simpa using fun he : x = c => h (he ▸ hx)]
    simp [List.findIdx?_cons]
  rw [indexOf, hsome]

theorem substr_append (s rest : Bytes) : substr (s ++ rest) 0 s.length = s := by
  rw [substr, if_pos (Int.natCast_nonneg _)]
  simp

theorem substr_middle (s mid rest : Bytes) : substr (s ++ (mid ++ rest)) s.length mid.length = mid := by
  rw [substr, if_pos (Int.natCast_nonneg _)]
  simp

/-- The first part of a text that is split is the text before the first separator. -/
theorem splitOn_head (s : Bytes) (c : UInt8) : (s.splitOn c)[0]? = some (s.takeWhile (· ≠ c)) := by
  by_cases h : c ∈ s
  · obtain ⟨rest, hsplit⟩ := split_first h
    have hnot : c ∉ s.takeWhile (· ≠ c) := fun hmem =>
      absurd (forall_takeWhile s c hmem) (by simp)
    conv_lhs => rw [hsplit]
    rw [List.splitOn_append_cons_self_of_not_mem hnot]
    rfl
  · rw [List.splitOn_eq_singleton h, List.takeWhile_eq_self_iff.mpr (forall_ne h)]
    rfl

/-- The user is what stands before the first colon, the password what stands before the second. -/
theorem splitOn_userinfo {user : Bytes} (huser : colon ∉ user) (password : Option Bytes) :
    ((user ++ optionalText colon password).splitOn colon)[0]? = some user ∧
    ((user ++ optionalText colon password).splitOn colon)[1]? =
      password.map fun pass => pass.takeWhile (· ≠ colon) := by
  cases password with
  | none =>
      rw [optionalText, List.append_nil, List.splitOn_eq_singleton huser]
      exact ⟨rfl, rfl⟩
  | some pass =>
      rw [optionalText, List.splitOn_append_cons_self_of_not_mem huser]
      exact ⟨rfl, splitOn_head pass colon⟩

/-! ## The entry that the JS backend makes -/

theorem properServer_of_not_mem {url : Bytes} (h : atSign ∉ url) :
    properServer url = { urls := url, username := none, credential := none } := by
  unfold properServer
  rw [indexOf_eq_neg_one h]
  exact if_neg fun hne => hne rfl

/-- With a colon before the first `@`. -/
theorem properServer_credentials {scheme creds host : Bytes} (hcolon : colon ∉ scheme)
    (hscheme : atSign ∉ scheme) (hcreds : atSign ∉ creds) :
    properServer (scheme ++ colon :: (creds ++ atSign :: host)) =
      { urls := scheme ++ colon :: host, username := (creds.splitOn colon)[0]?,
        credential := (creds.splitOn colon)[1]? } := by
  have hat : indexOf (scheme ++ colon :: (creds ++ atSign :: host)) atSign =
      ((scheme ++ colon :: creds).length : Nat) := by
    have hnot : atSign ∉ scheme ++ colon :: creds := by
      simp only [List.mem_append, List.mem_cons, not_or]
      exact ⟨hscheme, by decide, hcreds⟩
    have hidx : indexOf (scheme ++ colon :: creds ++ atSign :: host) atSign = _ := indexOf_append hnot
    rwa [List.append_assoc, List.cons_append] at hidx
  have hproto : substr (scheme ++ colon :: (creds ++ atSign :: host)) 0 scheme.length = scheme :=
    substr_append scheme _
  have hmid : substr (scheme ++ colon :: (creds ++ atSign :: host)) (scheme.length + 1)
      ((scheme ++ colon :: creds).length - scheme.length - 1) = creds := by
    have hsub := substr_middle (scheme ++ [colon]) creds (atSign :: host)
    have hlen : (((scheme ++ colon :: creds).length : Nat) : Int) - scheme.length - 1 = creds.length := by
      simp only [List.length_append, List.length_cons]
      omega
    rw [hlen]
    simpa using hsub
  have hhost : (scheme ++ colon :: (creds ++ atSign :: host)).drop
      (((scheme ++ colon :: creds).length : Nat) + 1 : Int).toNat = host := by
    have hnat : (((scheme ++ colon :: creds).length : Nat) + 1 : Int).toNat =
        (scheme ++ colon :: (creds ++ [atSign])).length := by
      simp only [List.length_append, List.length_cons, List.length_nil]
      omega
    rw [hnat]
    have hassoc : scheme ++ colon :: (creds ++ atSign :: host) =
        (scheme ++ colon :: (creds ++ [atSign])) ++ host := by simp
    rw [hassoc, List.drop_left]
  unfold properServer
  rw [hat, indexOf_append hcolon]
  rw [if_pos (by omega)]
  simp only [hproto, hmid, hhost]

theorem takeWhile_colon {s rest : Bytes} (h : colon ∉ s) :
    (s ++ colon :: rest).takeWhile (· ≠ colon) = s :=
  takeWhile_append (forall_ne h) (stops_cons.mpr (by decide))

theorem dropWhile_colon {s rest : Bytes} (h : colon ∉ s) :
    (s ++ colon :: rest).dropWhile (· ≠ colon) = colon :: rest :=
  dropWhile_append (forall_ne h) (stops_cons.mpr (by decide))

/-- Without a colon before the first `@`, the `@` stays before the first colon of the entry. -/
theorem properServer_no_colon {start host : Bytes} (hcolon : colon ∉ start) (hat : atSign ∉ start)
    (hhost : host ≠ []) :
    atSign ∈ (properServer (start ++ atSign :: host)).urls.takeWhile (· ≠ colon) := by
  have hurls : ∀ proto : Bytes, colon ∉ proto → atSign ∈ proto →
      substr (start ++ atSign :: host) 0 (indexOf (start ++ atSign :: host) colon) = proto →
      atSign ∈ (properServer (start ++ atSign :: host)).urls.takeWhile (· ≠ colon) := by
    intro proto hproto hmem heq
    unfold properServer
    rw [indexOf_append hat, if_pos (by omega)]
    simp only [heq]
    rw [takeWhile_colon hproto]
    exact hmem
  by_cases h : colon ∈ host
  · obtain ⟨rest, hsplit⟩ := split_first h
    have hnot : colon ∉ start ++ atSign :: host.takeWhile (· ≠ colon) := by
      simp only [List.mem_append, List.mem_cons, not_or]
      exact ⟨hcolon, by decide, fun hmem => absurd (forall_takeWhile host _ hmem) (by simp)⟩
    have htext : start ++ atSign :: host =
        (start ++ atSign :: host.takeWhile (· ≠ colon)) ++ colon :: rest := by
      rw [List.append_assoc, List.cons_append, ← hsplit]
    apply hurls _ hnot (by simp)
    rw [htext, indexOf_append hnot]
    exact substr_append _ _
  · have hnot : colon ∉ start ++ atSign :: host := by
      simp only [List.mem_append, List.mem_cons, not_or]
      exact ⟨hcolon, by decide, h⟩
    have htext : start ++ atSign :: host =
        (start ++ atSign :: host.dropLast) ++ [host.getLast hhost] := by
      rw [List.append_assoc, List.cons_append, List.dropLast_append_getLast hhost]
    refine hurls (start ++ atSign :: host.dropLast) ?_ (by simp) ?_
    · intro hmem
      apply hnot
      rw [htext]
      exact List.mem_append_left _ hmem
    · rw [indexOf_eq_neg_one hnot, htext, substr, if_neg (by decide), if_pos rfl]
      have hlen : (((start ++ atSign :: host.dropLast ++ [host.getLast hhost]).length : Nat) + -1 :
          Int).toNat = (start ++ atSign :: host.dropLast).length := by
        simp only [List.length_append, List.length_cons, List.length_nil]
        omega
      rw [hlen, List.take_left]

/-! ## Schemes -/

/-- A character that a class `[^…]` leaves out is in its list. -/
theorem mem_of_excluded {c : UInt8} {chars : Bytes} (h : decide (c ∉ chars) = false) : c ∈ chars := by
  rwa [decide_eq_false_iff_not, Decidable.not_not] at h

theorem schemeChar_of_isLetter {c : UInt8} (h : isLetter c = true) : schemeChar c = true := by
  by_contra hc
  have hmem : c ∈ [colon, dot, atSign, slash, question, hash] := mem_of_excluded (Bool.not_eq_true _ ▸ hc)
  simp only [List.mem_cons, List.not_mem_nil, or_false] at hmem
  rcases hmem with rfl | rfl | rfl | rfl | rfl | rfl <;> exact absurd h (by decide)

/-- A scheme that the browser knows is one by the grammar of libdatachannel. -/
theorem forall_of_browserScheme {s : Bytes} {x : ServerType × Bool} (h : browserScheme s = some x) :
    s ≠ [] ∧ ∀ c ∈ s, schemeChar c = true := by
  have hname : ∀ name : Bytes, name ≠ [] ∧ name.all (fun d => 97 ≤ d ∧ d ≤ 122) = true →
      s.map lower = name → s ≠ [] ∧ ∀ c ∈ s, schemeChar c = true := by
    rintro name ⟨hne, hname⟩ rfl
    refine ⟨fun hs => hne (by rw [hs, List.map_nil]), fun c hc => schemeChar_of_isLetter ?_⟩
    exact List.all_eq_true.mp hname (lower c) (List.mem_map_of_mem hc)
  unfold browserScheme at h
  split at h
  · rename_i hs
    exact hname _ (by decide) hs
  · split at h
    · rename_i hs
      exact hname _ (by decide) hs
    · split at h
      · rename_i hs
        exact hname _ (by decide) hs
      · split at h
        · rename_i hs
          exact hname _ (by decide) hs
        · exact absurd h (by simp)

theorem readScheme_of_browserScheme {s : Bytes} {x : ServerType × Bool} (h : browserScheme s = some x)
    (rest : Bytes) : readScheme (s ++ colon :: rest) = (some s, rest) :=
  readScheme_append (forall_of_browserScheme h).1 (forall_of_browserScheme h).2

theorem schemeType_cases {s : Bytes} {type : ServerType} {relay : RelayType}
    (h : schemeType s = some (type, relay)) :
    ((s = ascii "stun" ∨ s = ascii "STUN") ∧ type = .Stun ∧ relay = .TurnUdp) ∨
    ((s = ascii "turn" ∨ s = ascii "TURN") ∧ type = .Turn ∧ relay = .TurnUdp) ∨
    ((s = ascii "turns" ∨ s = ascii "TURNS") ∧ type = .Turn ∧ relay = .TurnTls) := by
  unfold schemeType at h
  split at h
  · rename_i hs
    obtain ⟨rfl, rfl⟩ := Prod.mk.inj (Option.some.inj h)
    exact .inl ⟨hs, rfl, rfl⟩
  · split at h
    · rename_i hs
      obtain ⟨rfl, rfl⟩ := Prod.mk.inj (Option.some.inj h)
      exact .inr (.inl ⟨hs, rfl, rfl⟩)
    · split at h
      · rename_i hs
        obtain ⟨rfl, rfl⟩ := Prod.mk.inj (Option.some.inj h)
        exact .inr (.inr ⟨hs, rfl, rfl⟩)
      · exact absurd h (by simp)

/-- The schemes of libdatachannel are schemes of the browser. -/
theorem browserScheme_of_schemeType {s : Bytes} {type : ServerType} {relay : RelayType}
    (h : schemeType s = some (type, relay)) :
    browserScheme s = some (type, decide (relay = .TurnTls)) := by
  obtain ⟨rfl | rfl, rfl, rfl⟩ | ⟨rfl | rfl, rfl, rfl⟩ | ⟨rfl | rfl, rfl, rfl⟩ := schemeType_cases h <;>
    decide

/-! ## Hosts -/

section Hosts

variable (ipLiteral : Bytes → Bool)

/-- A registered name in which every `%` begins an escape, or an IP literal in brackets. -/
def PlainHost (host : Bytes) : Prop :=
  ((∀ c ∈ host, regNameChar c = true) ∧ validEscapes host = true) ∨
  ∃ name, host = openBracket :: (name ++ [closeBracket]) ∧ (∀ c ∈ name, literalChar c = true) ∧
    ipLiteral name = true

/-- What ends a host in a URL is no character of a name. -/
theorem stops_regNameChar {rest : Bytes} (h : Stops hostChar rest) : Stops regNameChar rest := by
  intro c hc
  have hmem : c ∈ [colon, slash, question, hash] := mem_of_excluded (h c hc)
  simp only [List.mem_cons, List.not_mem_nil, or_false] at hmem
  rcases hmem with rfl | rfl | rfl | rfl <;> decide

theorem hostnameOf_name {host : Bytes} (h : host.head? ≠ some openBracket) :
    hostnameOf host = url_decode host :=
  if_neg fun hand => h hand.1

theorem hostnameOf_literal (name : Bytes) :
    hostnameOf (openBracket :: (name ++ [closeBracket])) = name := by
  have hlast : (openBracket :: (name ++ [closeBracket])).getLast? = some closeBracket := by
    rw [← List.cons_append, List.getLast?_concat]
  rw [hostnameOf, if_pos ⟨rfl, hlast⟩, List.tail_cons, List.dropLast_concat]

/-- A name that is not in brackets keeps its first bracket. -/
theorem hostnameOf_open {host : Bytes} (h : (openBracket :: host).getLast? ≠ some closeBracket) :
    hostnameOf (openBracket :: host) = openBracket :: url_decode host := by
  rw [hostnameOf, if_neg fun hand => h hand.2]
  exact url_decode_cons (by decide) host

theorem readHost_plain {host rest : Bytes} (h : PlainHost ipLiteral host) (hrest : Stops hostChar rest) :
    readHost ipLiteral (host ++ rest) = some (hostnameOf host, rest) := by
  obtain ⟨hname, hescapes⟩ | ⟨name, rfl, hname, hliteral⟩ := h
  · have hhead : host.head? ≠ some openBracket := fun he =>
      absurd (hname openBracket (List.mem_of_mem_head? he)) (by decide)
    have heat : eat openBracket (host ++ rest) = none := by
      apply eat_eq_none.mpr
      intro he
      rw [List.head?_append] at he
      cases hh : host.head? with
      | some c => exact hhead (hh.trans (by rwa [hh] at he))
      | none =>
          rw [hh] at he
          exact absurd (hrest openBracket he) (by decide)
    have hstop := stops_regNameChar hrest
    rw [readHost, heat]
    simp only [takeWhile_append hname hstop, dropWhile_append hname hstop]
    rw [if_pos hescapes, hostnameOf_name hhead]
  · have hstop : Stops literalChar (closeBracket :: rest) := stops_cons.mpr (by decide)
    have htext : openBracket :: (name ++ [closeBracket]) ++ rest =
        openBracket :: (name ++ closeBracket :: rest) := by simp
    rw [htext, readHost, eat_cons]
    simp only [takeWhile_append hname hstop, dropWhile_append hname hstop, eat_cons, hostnameOf_literal]
    exact if_pos hliteral

/-- What can stand behind the host for the reading to go on. -/
def addressChar (c : UInt8) : Bool := c ∉ [colon, question]

theorem addressChar_of_hostChar {c : UInt8} (h : hostChar c = true) : addressChar c = true := by
  by_contra hc
  have hmem : c ∈ [colon, question] := mem_of_excluded (Bool.not_eq_true _ ▸ hc)
  simp only [List.mem_cons, List.not_mem_nil, or_false] at hmem
  rcases hmem with rfl | rfl <;> exact absurd h (by decide)

/-- Where two texts begin alike and the first cannot go on with what the second goes on with, and the other
    way round, they have the same beginning. -/
theorem append_eq {xs ys rest rest' : Bytes} (h : xs ++ rest = ys ++ rest')
    (hxs : ∀ a ∈ rest'.head?, a ∉ xs) (hys : ∀ a ∈ rest.head?, a ∉ ys) : xs = ys ∧ rest = rest' := by
  obtain ⟨mid, hys', hrest⟩ | ⟨mid, hxs', hrest'⟩ := List.append_eq_append_iff.mp h
  · cases mid with
    | nil => exact ⟨by simpa using hys'.symm, by simpa using hrest⟩
    | cons a mid =>
        refine absurd ?_ (hys a (by rw [hrest]; rfl))
        rw [hys']
        simp
  · cases mid with
    | nil => exact ⟨by simpa using hxs', by simpa using hrest'.symm⟩
    | cons a mid =>
        refine absurd ?_ (hxs a (by rw [hrest']; rfl))
        rw [hxs']
        simp

/-- If the browser finds the host that libdatachannel finds, and can read on, the host is plain. -/
theorem readHost_inv {host rest rest' : Bytes} (hhost : ∀ c ∈ host, hostChar c = true) (hne : host ≠ [])
    (hstop : Stops hostChar rest) (h : readHost ipLiteral (host ++ rest) = some (hostnameOf host, rest'))
    (hrest' : Stops addressChar rest') : PlainHost ipLiteral host ∧ rest' = rest := by
  have hends : ∀ a ∈ rest'.head?, a ∉ host := fun a ha hmem => by
    have htrue := addressChar_of_hostChar (hhost a hmem)
    rw [hrest' a ha] at htrue
    exact absurd htrue (by decide)
  by_cases hc : host.head? = some openBracket
  · -- the text between the brackets is what libdatachannel finds there only if it ends with the host
    obtain ⟨host, rfl⟩ := List.head?_eq_some_iff.mp hc
    rw [readHost, List.cons_append, eat_cons] at h
    obtain ⟨after, heat, hif⟩ := Option.bind_eq_some_iff.mp h
    obtain ⟨hliteral, hpair⟩ := Option.ite_none_right_eq_some.mp hif
    obtain ⟨hname, rfl⟩ := Prod.mk.inj (Option.some.inj hpair)
    have hall := forall_takeWhile (p := literalChar) (host ++ rest)
    have hsplit := List.takeWhile_append_dropWhile (p := literalChar) (l := host ++ rest)
    rw [eat_eq_some.mp heat] at hsplit
    rw [hname] at hall hliteral hsplit
    by_cases hlast : (openBracket :: host).getLast? = some closeBracket
    · obtain ⟨mid, rfl⟩ : ∃ mid, host = mid ++ [closeBracket] := by
        rcases List.eq_nil_or_concat host with rfl | ⟨mid, c, rfl⟩
        · exact absurd hlast (by decide)
        · rw [List.concat_eq_append] at hlast ⊢
          rw [← List.cons_append, List.getLast?_concat] at hlast
          exact ⟨mid, by rw [Option.some.inj hlast]⟩
      rw [hostnameOf_literal] at hall hliteral hsplit
      rw [List.append_assoc] at hsplit
      have hrest := List.append_cancel_left hsplit
      exact ⟨.inr ⟨mid, rfl, hall, hliteral⟩, (List.cons.inj hrest).2⟩
    · rw [hostnameOf_open hlast] at hall
      exact absurd (hall openBracket (List.mem_cons_self ..)) (by decide)
  · have heat : eat openBracket (host ++ rest) = none := by
      refine eat_eq_none.mpr fun he => hc ?_
      rwa [List.head?_append_of_ne_nil _ hne] at he
    rw [readHost, heat] at h
    obtain ⟨hescapes, hpair⟩ := Option.ite_none_right_eq_some.mp h
    obtain ⟨-, rfl⟩ := Prod.mk.inj (Option.some.inj hpair)
    have hall := forall_takeWhile (p := regNameChar) (host ++ rest)
    have hsplit := List.takeWhile_append_dropWhile (p := regNameChar) (l := host ++ rest)
    obtain ⟨hhost', hrest⟩ := append_eq hsplit.symm hends fun a ha hmem => by
      have htrue := hall a hmem
      rw [stops_regNameChar hstop a ha] at htrue
      exact absurd htrue (by decide)
    rw [← hhost'] at hall hescapes
    exact ⟨.inl ⟨hall, hescapes⟩, hrest.symm⟩

end Hosts

/-! ## Ports and transports -/

def PlainPort (port : Option Bytes) : Prop :=
  ∀ p ∈ port, (∀ c ∈ p, isDigit c = true) ∧ digitsValue p < 2 ^ 16

/-- No query, or one that gives the same transport to both. libdatachannel knows the transports by their names
    in lower case, and takes `transport=tcp` to mean that TURN is not secured. -/
def PlainQuery (type : ServerType) (secure : Bool) (query : Option Bytes) : Prop :=
  ∀ q ∈ query, type = .Turn ∧
    if secure then q.map lower = ascii "transport=tcp" ∧ q ≠ ascii "transport=tcp"
    else q.map lower = ascii "transport=udp" ∨ q = ascii "transport=tcp"

theorem group_some {text : Bytes} (h : text ≠ []) : group (some text) = some text :=
  Option.filter_eq_some_iff.mpr ⟨rfl, decide_eq_true h⟩

theorem group_cases (part : Option Bytes) :
    group part = none ∧ part.getD [] = [] ∨ ∃ text, text ≠ [] ∧ part = some text ∧ group part = part := by
  match part with
  | none           => exact .inl ⟨rfl, rfl⟩
  | some []        => exact .inl ⟨rfl, rfl⟩
  | some (c :: cs) => exact .inr ⟨c :: cs, by simp, rfl, group_some (by simp)⟩

theorem stoul_digits {p : Bytes} (hne : p ≠ []) (hp : ∀ c ∈ p, isDigit c = true)
    (hlt : digitsValue p < 2 ^ 64) : stoul p = some (digitsValue p) := by
  obtain ⟨c, cs, rfl⟩ := List.exists_cons_of_ne_nil hne
  have hc : 48 ≤ c ∧ c ≤ 57 := of_decide_eq_true (hp c (List.mem_cons_self ..))
  have hspace : (c :: cs).dropWhile isSpace = c :: cs := by
    apply List.dropWhile_cons_of_neg
    simp only [isSpace, decide_eq_true_eq]
    rintro (rfl | ⟨-, hle⟩)
    · exact absurd hc (by decide)
    · exact absurd (UInt8.le_trans hc.1 hle) (by decide)
  have hminus : c ≠ 45 := by
    rintro rfl
    exact absurd hc (by decide)
  have hplus : c ≠ 43 := by
    rintro rfl
    exact absurd hc (by decide)
  have hdigits : (c :: cs).takeWhile isDigit = c :: cs := List.takeWhile_eq_self_iff.mpr hp
  unfold stoul
  simp only [hspace, List.head?_cons, Option.some.injEq, hminus, hplus, or_self, if_false, hdigits,
    reduceCtorEq, false_or, if_neg (Nat.not_le.mpr hlt)]

/-- The port of a plain URL is the same number to both. -/
theorem readPort_plain {port : Option Bytes} {n : Nat} {secure : Bool} (hport : PlainPort port)
    (hn : stoul ((group port).getD (if secure then ascii "5349" else ascii "3478")) = some n) :
    readPort secure port = some (n % 2 ^ 16) := by
  unfold readPort
  obtain ⟨hgroup, -⟩ | ⟨p, hne, rfl, hgroup⟩ := group_cases port
  · rw [hgroup] at hn ⊢
    cases secure with
    | true =>
        have hn' : (5349 : Nat) = n := Option.some.inj ((by decide : stoul (ascii "5349") = _).symm.trans hn)
        rw [← hn']
        rfl
    | false =>
        have hn' : (3478 : Nat) = n := Option.some.inj ((by decide : stoul (ascii "3478") = _).symm.trans hn)
        rw [← hn']
        rfl
  · obtain ⟨hp, hlt⟩ := hport p rfl
    rw [hgroup] at hn ⊢
    rw [Option.getD_some, stoul_digits hne hp (lt_trans hlt (by decide))] at hn
    obtain rfl := Option.some.inj hn
    show (if digitsValue p < 2 ^ 16 then _ else _) = _
    rw [if_pos hlt, Nat.mod_eq_of_lt hlt]

/-- A query as long as the name of a transport contains it only if it is the name. -/
theorem infix_query {name q : Bytes} (hlen : name.length = q.length) : name <:+: q ↔ q = name :=
  ⟨fun h => (h.eq_of_length hlen).symm, fun h => h ▸ List.infix_refl q⟩

theorem relayTypeOf_query {relay : RelayType} {q : Bytes} (hlen : q.length = 13) :
    relayTypeOf relay (group (some q)) =
      if q = ascii "transport=tls" then .TurnTls
      else if q = ascii "transport=tcp" then .TurnTcp
      else if q = ascii "transport=udp" then .TurnUdp
      else relay := by
  have hne : q ≠ [] := by
    rintro rfl
    exact absurd hlen (by decide)
  have htls : ascii "transport=tls" <:+: q ↔ q = ascii "transport=tls" := infix_query hlen.symm
  have htcp : ascii "transport=tcp" <:+: q ↔ q = ascii "transport=tcp" := infix_query hlen.symm
  have hudp : ascii "transport=udp" <:+: q ↔ q = ascii "transport=udp" := infix_query hlen.symm
  simp only [group_some hne, relayTypeOf, htls, htcp, hudp]

/-- A name in any case is no other name. -/
theorem ne_of_map_lower {q name name' : Bytes} (h : q.map lower = name) (hne : name'.map lower ≠ name) :
    q ≠ name' := by
  rintro rfl
  exact hne h

theorem relayTypeOf_udp {relay : RelayType} {q : Bytes} (h : q.map lower = ascii "transport=udp") :
    relayTypeOf relay (group (some q)) = if q = ascii "transport=udp" then .TurnUdp else relay := by
  have hlen : q.length = 13 := (List.length_map lower).symm.trans (congrArg List.length h)
  rw [relayTypeOf_query hlen, if_neg (ne_of_map_lower h (by decide)), if_neg (ne_of_map_lower h (by decide))]

theorem relayTypeOf_tcp {relay : RelayType} {q : Bytes} (h : q.map lower = ascii "transport=tcp") :
    relayTypeOf relay (group (some q)) = if q = ascii "transport=tcp" then .TurnTcp else relay := by
  have hlen : q.length = 13 := (List.length_map lower).symm.trans (congrArg List.length h)
  rw [relayTypeOf_query hlen, if_neg (ne_of_map_lower h (by decide))]
  by_cases hexact : q = ascii "transport=tcp"
  · rw [if_pos hexact, if_pos hexact]
  · rw [if_neg hexact, if_neg hexact, if_neg (ne_of_map_lower h (by decide))]

/-- **The same transport to both.** -/
theorem transport_alike {type : ServerType} {secure : Bool} {relay : RelayType} (query : Option Bytes)
    (hrelay : relay = if secure then .TurnTls else .TurnUdp) :
    readTransport type secure (optionalText question query) =
      some (relayTypeOf relay (group query)).transport ↔ PlainQuery type secure query := by
  subst hrelay
  cases query with
  | none =>
      have hplain : PlainQuery type secure none := fun q hq => absurd hq (by simp)
      refine iff_of_true ?_ hplain
      cases secure <;> rfl
  | some q =>
      have hsome : PlainQuery type secure (some q) ↔ type = .Turn ∧
          if secure then q.map lower = ascii "transport=tcp" ∧ q ≠ ascii "transport=tcp"
          else q.map lower = ascii "transport=udp" ∨ q = ascii "transport=tcp" :=
        ⟨fun h => h q rfl, fun h q' hq' => Option.some.inj hq' ▸ h⟩
      rw [hsome]
      by_cases htype : type = .Turn
      · have hread : readTransport type secure (optionalText question (some q)) =
            if q.map lower = ascii "transport=udp" then some (if secure then .dtls else .udp)
            else if q.map lower = ascii "transport=tcp" then some (if secure then .tls else .tcp)
            else none := if_pos ⟨rfl, htype⟩
        rw [hread]
        by_cases hudp : q.map lower = ascii "transport=udp"
        · -- TURN over DTLS is not known to libdatachannel
          rw [if_pos hudp, relayTypeOf_udp hudp]
          cases secure with
          | true =>
              refine iff_of_false ?_ fun h => absurd (hudp.symm.trans h.2.1) (by decide)
              by_cases hexact : q = ascii "transport=udp"
              · rw [if_pos hexact]
                decide
              · rw [if_neg hexact]
                decide
          | false =>
              refine iff_of_true ?_ ⟨htype, .inl hudp⟩
              by_cases hexact : q = ascii "transport=udp"
              · rw [if_pos hexact]
                rfl
              · rw [if_neg hexact]
                rfl
        · rw [if_neg hudp]
          by_cases htcp : q.map lower = ascii "transport=tcp"
          · rw [if_pos htcp, relayTypeOf_tcp htcp]
            by_cases hexact : q = ascii "transport=tcp"
            · rw [if_pos hexact]
              cases secure with
              | true  => exact iff_of_false (by decide) fun h => h.2.2 hexact
              | false => exact iff_of_true rfl ⟨htype, .inr hexact⟩
            · rw [if_neg hexact]
              cases secure with
              | true  => exact iff_of_true rfl ⟨htype, htcp, hexact⟩
              | false => exact iff_of_false (by decide) fun h => h.2.elim hudp hexact
          · rw [if_neg htcp]
            apply iff_of_false (by simp)
            intro h
            cases secure with
            | true  => exact htcp h.2.1
            | false => exact h.2.elim hudp fun he => htcp (by rw [he]; decide)
      · refine iff_of_false ?_ fun h => htype h.1
        rw [optionalText, readTransport, if_neg fun h => htype h.2]
        simp

/-! ## Addresses -/

section Addresses

variable (ipLiteral : Bytes → Bool)

/-- What the browser can read behind the scheme of a URL, as libdatachannel reads it. -/
structure PlainAddress (type : ServerType) (secure : Bool) (u : Url) : Prop where
  host     : PlainHost ipLiteral u.host
  port     : PlainPort u.port
  path     : u.path = []
  query    : PlainQuery type secure u.query
  fragment : u.fragment = none

theorem readTransport_stops {type : ServerType} {secure : Bool} {s : Bytes} {t : Transport}
    (h : readTransport type secure s = some t) : ∀ c ∈ s.head?, c = question := by
  intro c hc
  cases s with
  | nil => exact absurd hc (by simp)
  | cons d q =>
      obtain rfl : d = c := by simpa using hc
      by_contra hne
      rw [readTransport, if_neg fun hand => hne hand.1] at h
      exact absurd h (by simp)

/-- If the port of a URL has digits only, the browser reads it. -/
theorem optional_port {u : Url} (hu : u.WellFormed) (hport : ∀ p ∈ u.port, ∀ c ∈ p, isDigit c = true) :
    Span.optional colon isDigit u.portText = (u.port, u.pathText) := by
  refine optional_append (fun p hp => ⟨hport p hp, ?_⟩) hu.port_none
  intro c hc
  have hmem : c ∈ [slash, question, hash] := mem_of_excluded (hu.port_stops c hc)
  simp only [List.mem_cons, List.not_mem_nil, or_false] at hmem
  rcases hmem with rfl | rfl | rfl <;> decide

/-- If the browser can go on behind the port, that has digits only. -/
theorem port_of_optional {u : Url} (hu : u.WellFormed)
    (hend : ∀ c ∈ (Span.optional colon isDigit u.portText).2.head?, c = question) :
    ∀ p ∈ u.port, ∀ c ∈ p, isDigit c = true := by
  intro p hp c hc
  by_contra hdigit
  obtain ⟨a, rest, hdrop, -⟩ := dropWhile_of_mem (p := isDigit) hc (by simpa using hdigit)
  have hmem : a ∈ p := (List.dropWhile_sublist isDigit).subset (hdrop ▸ List.mem_cons_self ..)
  have hread : Span.optional colon isDigit u.portText =
      (some ((p ++ u.pathText).takeWhile isDigit), (p ++ u.pathText).dropWhile isDigit) := by
    rw [Url.portText, Option.mem_def.mp hp, optionalText, List.cons_append, Span.optional, eat_cons]
  rw [hread, List.dropWhile_append, hdrop] at hend
  have ha := hu.port p hp a hmem
  rw [hend a rfl] at ha
  exact absurd ha (by decide)

theorem readAddress_plain {type : ServerType} {secure : Bool} {u : Url} (hu : u.WellFormed)
    (h : PlainAddress ipLiteral type secure u) :
    readAddress ipLiteral type secure u.hostText = (do
      let port ← readPort secure u.port
      let transport ← readTransport type secure (optionalText question u.query)
      some (hostnameOf u.host, port, transport)) := by
  have htail : u.pathText = optionalText question u.query := by
    rw [Url.pathText, Url.queryText, Url.fragmentText, h.path, h.fragment, optionalText]
    simp
  rw [readAddress, Url.hostText, readHost_plain ipLiteral h.host hu.host_stops, Option.bind_eq_bind,
    Option.bind_some]
  simp only [optional_port hu fun p hp => (h.port p hp).1, htail]

/-- A name of a transport has no `#` in it. -/
theorem readTransport_fragment {type : ServerType} {secure : Bool} {query fragment : Option Bytes}
    {t : Transport}
    (h : readTransport type secure (optionalText question query ++ optionalText hash fragment) = some t) :
    fragment = none := by
  cases fragment with
  | none => rfl
  | some f =>
      cases query with
      | none => exact absurd (readTransport_stops h hash rfl) (by decide)
      | some q =>
          have hmem : hash ∈ (q ++ hash :: f).map lower :=
            List.mem_map.mpr ⟨hash, by simp, by decide⟩
          have hread : readTransport type secure (question :: (q ++ hash :: f)) = some t := h
          rw [readTransport] at hread
          split at hread
          · split at hread
            · rename_i hname
              rw [hname] at hmem
              exact absurd hmem (by decide)
            · split at hread
              · rename_i hname
                rw [hname] at hmem
                exact absurd hmem (by decide)
              · exact absurd hread (by simp)
          · exact absurd hread (by simp)

theorem readAddress_inv {type : ServerType} {secure : Bool} {u : Url} {port : Nat} {t : Transport}
    (hu : u.WellFormed) (hne : u.host ≠ [])
    (h : readAddress ipLiteral type secure u.hostText = some (hostnameOf u.host, port, t)) :
    PlainHost ipLiteral u.host ∧ PlainPort u.port ∧ u.path = [] ∧ u.fragment = none ∧
      readTransport type secure (optionalText question u.query) = some t := by
  obtain ⟨⟨name, rest⟩, hhost, hbind⟩ := Option.bind_eq_some_iff.mp h
  obtain ⟨port', hport, hbind⟩ := Option.bind_eq_some_iff.mp hbind
  obtain ⟨t', ht, hsome⟩ := Option.bind_eq_some_iff.mp hbind
  obtain ⟨rfl, hpair⟩ := Prod.mk.inj (Option.some.inj hsome)
  obtain ⟨rfl, rfl⟩ := Prod.mk.inj hpair
  have hend := readTransport_stops ht
  have hrest : Stops addressChar rest := by
    intro c hc
    cases heat : eat colon rest with
    | some after =>
        obtain rfl : colon = c := by simpa [eat_eq_some.mp heat] using hc
        decide
    | none =>
        have hread : Span.optional colon isDigit rest = (none, rest) := by rw [Span.optional, heat]
        rw [hread] at hend
        obtain rfl := hend c hc
        decide
  obtain ⟨hplain, rfl⟩ := readHost_inv ipLiteral hu.host hne hu.host_stops hhost hrest
  have hdigits := port_of_optional hu hend
  rw [optional_port hu hdigits] at hport ht
  have hpath : u.path = [] := by
    cases hp : u.path with
    | nil => rfl
    | cons c path =>
        have hc : pathChar c = true := hu.path c (hp ▸ List.mem_cons_self ..)
        have hq : c = question := readTransport_stops ht c (by rw [Url.pathText, hp]; rfl)
        rw [hq] at hc
        exact absurd hc (by decide)
  rw [Url.pathText, hpath, List.nil_append] at ht
  have hfragment := readTransport_fragment ht
  rw [Url.queryText, Url.fragmentText, hfragment, optionalText, List.append_nil] at ht
  refine ⟨hplain, fun p hp => ⟨hdigits p hp, ?_⟩, hpath, hfragment, ht⟩
  obtain ⟨-, hempty⟩ | ⟨p', -, hp', hgroup⟩ := group_cases u.port
  · obtain rfl : p = [] := by simpa [Option.mem_def.mp hp] using hempty
    decide
  · obtain rfl : p' = p := Option.some.inj (hp'.symm.trans hp)
    rw [readPort, hgroup, hp'] at hport
    exact (Option.ite_none_right_eq_some.mp hport).1

/-- Whether a transport is secured depends on the scheme only. -/
theorem readTransport_secure {type : ServerType} {secure : Bool} {s : Bytes} {t : Transport}
    (h : readTransport type secure s = some t) : t = .tls ∨ t = .dtls ↔ secure = true := by
  have hif : ∀ t₁ t₂ : Transport, some (if secure then t₁ else t₂) = some t →
      (t₁ = .tls ∨ t₁ = .dtls) → ¬(t₂ = .tls ∨ t₂ = .dtls) → (t = .tls ∨ t = .dtls ↔ secure = true) := by
    intro t₁ t₂ ht h₁ h₂
    obtain rfl := Option.some.inj ht
    cases secure with
    | true  => exact iff_of_true h₁ rfl
    | false => exact iff_of_false h₂ (by decide)
  cases s with
  | nil => exact hif .tls .udp h (by decide) (by decide)
  | cons c q =>
      obtain ⟨-, hq⟩ := Option.ite_none_right_eq_some.mp h
      split at hq
      · exact hif .dtls .udp hq (by decide) (by decide)
      · obtain ⟨-, hq⟩ := Option.ite_none_right_eq_some.mp hq
        exact hif .tls .tcp hq (by decide) (by decide)

/-- **The same host, port and transport to both.** -/
theorem address_alike {type : ServerType} {secure : Bool} {relay : RelayType} {u : Url} {n : Nat}
    (hu : u.WellFormed) (hne : u.host ≠ []) (hrelay : relay = if secure then .TurnTls else .TurnUdp)
    (hn : stoul ((group u.port).getD
      (if relayTypeOf relay (group u.query) = .TurnTls then ascii "5349" else ascii "3478")) = some n) :
    readAddress ipLiteral type secure u.hostText =
      some (hostnameOf u.host, n % 2 ^ 16, (relayTypeOf relay (group u.query)).transport) ↔
    PlainAddress ipLiteral type secure u := by
  constructor
  · intro h
    obtain ⟨hhost, hport, hpath, hfragment, ht⟩ := readAddress_inv ipLiteral hu hne h
    exact ⟨hhost, hport, hpath, (transport_alike u.query hrelay).mp ht, hfragment⟩
  · intro h
    have ht := (transport_alike u.query hrelay).mpr h.query
    have hsecure : relayTypeOf relay (group u.query) = .TurnTls ↔ secure = true := by
      refine Iff.trans ?_ (readTransport_secure ht)
      cases relayTypeOf relay (group u.query) <;> decide
    simp only [hsecure] at hn
    rw [readAddress_plain ipLiteral hu h, readPort_plain h.port hn, ht]
    rfl

end Addresses

/-! ## Users and passwords -/

/-- User and password need no decoding, there is no colon in the password, and TURN has both. -/
def PlainUserinfo (type : ServerType) : Option (Bytes × Option Bytes) → Prop
  | none                  => type = .Stun
  | some (user, password) =>
      escaped user = false ∧ (type = .Turn → password ≠ none) ∧
      ∀ pass ∈ password, escaped pass = false ∧ colon ∉ pass

theorem group_getD (part : Option Bytes) : (group part).getD [] = part.getD [] := by
  obtain ⟨hgroup, hempty⟩ | ⟨text, -, -, hgroup⟩ := group_cases part
  · rw [hgroup, hempty]
    rfl
  · rw [hgroup]

theorem escapeValue_digits {c a b v : UInt8} (h : escapeValue c a b = some v) :
    c = percent ∧ hexValue a ≠ none ∧ hexValue b ≠ none := by
  obtain ⟨hc, hv⟩ := Option.ite_none_right_eq_some.mp h
  refine ⟨hc, ?_, ?_⟩
  · intro ha
    rw [ha] at hv
    exact absurd hv (by simp)
  · intro hb
    rw [hb] at hv
    cases hexValue a <;> exact absurd hv (by simp)

/-- Decoding keeps the colons that are there. -/
theorem colon_mem_url_decode {s : Bytes} (h : colon ∈ s) : colon ∈ url_decode s := by
  induction s using url_decode.induct with
  | case1 c a b rest v hv ih =>
      rw [url_decode, hv]
      obtain ⟨hc, ha, hb⟩ := escapeValue_digits hv
      refine List.mem_cons_of_mem v (ih ?_)
      simp only [List.mem_cons] at h
      rcases h with rfl | rfl | rfl | h
      · exact absurd hc (by decide)
      · exact absurd (by decide) ha
      · exact absurd (by decide) hb
      · exact h
  | case2 c a b rest hv ih =>
      rw [url_decode, hv]
      rcases List.mem_cons.mp h with rfl | h
      · exact List.mem_cons_self ..
      · exact List.mem_cons_of_mem c (ih h)
  | case3 rest hrest =>
      rwa [url_decode.eq_2 rest hrest]

/-- The password that JS extracts is the one that libdatachannel extracts. -/
theorem password_alike (pass : Bytes) :
    pass.takeWhile (· ≠ colon) = url_decode pass ↔ escaped pass = false ∧ colon ∉ pass := by
  constructor
  · intro h
    have hnot : colon ∉ pass := fun hmem => by
      have hmem' := colon_mem_url_decode hmem
      rw [← h] at hmem'
      exact absurd (forall_takeWhile pass colon hmem') (by decide)
    rw [List.takeWhile_eq_self_iff.mpr (forall_ne hnot)] at h
    exact ⟨(url_decode_eq_self pass).mp h.symm, hnot⟩
  · rintro ⟨hescaped, hnot⟩
    rw [List.takeWhile_eq_self_iff.mpr (forall_ne hnot), (url_decode_eq_self pass).mpr hescaped]

/-- The user that JS extracts, with the slashes before it, is the one that libdatachannel extracts. -/
theorem user_alike (slashes : Nat) (user : Bytes) :
    List.replicate slashes slash ++ user = url_decode user ↔ slashes = 0 ∧ escaped user = false := by
  constructor
  · intro h
    have hle := url_decode_length_le user
    have hlen : slashes + user.length = (url_decode user).length := by
      rw [← h, List.length_append, List.length_replicate]
    obtain rfl : slashes = 0 := by omega
    exact ⟨rfl, (url_decode_eq_self user).mp h.symm⟩
  · rintro ⟨rfl, hescaped⟩
    exact ((url_decode_eq_self user).mpr hescaped).symm

end HxDatachannel.Ice
