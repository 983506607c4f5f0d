import AgentSchedBench.Agent.Message
import AgentSchedBench.Library.IpAddresses
import AgentSchedBench.Trace.Files

/-!
# The guard of internal addresses

A URL is refused if its host resolves to an address in one of some networks.
An address of version 6 that stands for one of version 4 is in none of them.
In a command the guard sees the URLs that a regular expression finds: what is
part of a longer one is not looked at.
-/

namespace AgentSchedBench.Agent

open IpAddresses
open Trace (Text)

/-! ## The parts of a URL -/

/-- What Python knows about texts of hosts: their small letters, and which
network locations `urlsplit` refuses with an error. -/
structure UrlRules where
  lower : Text → Text
  refuses : Text → Option Text

/-- The parts of a URL that the guard reads. -/
structure SplitUrl where
  scheme : Text
  netloc : Text

def isSchemeChar (char : Char) : Bool :=
  char.isAlphanum || char == '+' || char == '-' || char == '.'

/-- The scheme and what follows it. -/
def splitScheme (url : Text) : Text × Text :=
  let front := url.takeWhile (· ≠ ':')
  if front.length < url.length ∧ front.all isSchemeChar ∧
      (front.head?.map Char.isAlpha).getD false then
    (front.map Char.toLower, url.drop (front.length + 1))
  else ([], url)

/-- `urlparse(url)`: the error that is raised, or the parts. -/
def urlparse (rules : UrlRules) (url : Text) : Except Text SplitUrl :=
  let stripped := (url.dropWhile fun char => char.toNat ≤ 32).filter fun char =>
    !(char == '\t' || char == '\r' || char == '\n')
  let (scheme, rest) := splitScheme stripped
  match rest with
  | '/' :: '/' :: rest =>
      let netloc := rest.takeWhile fun char =>
        !(char == '/' || char == '?' || char == '#')
      if ('[' ∈ netloc) ≠ (']' ∈ netloc) then .error "Invalid IPv6 URL".toList
      else
        match rules.refuses netloc with
        | some error => .error error
        | none => .ok ⟨scheme, netloc⟩
  | _ => .ok ⟨scheme, []⟩

/-- `p.hostname` -/
def SplitUrl.hostname (rules : UrlRules) (url : SplitUrl) : Option Text :=
  let hostinfo := (url.netloc.reverse.takeWhile (· ≠ '@')).reverse
  let host :=
    match hostinfo.dropWhile (· ≠ '[') with
    | [] => hostinfo.takeWhile (· ≠ ':')
    | _ :: bracketed => bracketed.takeWhile (· ≠ ']')
  if host = [] then none
  else
    some (rules.lower (host.takeWhile (· ≠ '%')) ++ host.dropWhile (· ≠ '%'))

/-! ## The checks -/

/-- `_BLOCKED_NETWORKS` -/
def blockedNetworks : List IpNetwork :=
  [.v4 (ofOctets 0 0 0 0) 8, .v4 (ofOctets 10 0 0 0) 8,
    .v4 (ofOctets 100 64 0 0) 10, .v4 (ofOctets 127 0 0 0) 8,
    .v4 (ofOctets 169 254 0 0) 16, .v4 (ofOctets 172 16 0 0) 12,
    .v4 (ofOctets 192 168 0 0) 16, .v6 1#128 128,
    .v6 (0xfc00#128 <<< 112) 7, .v6 (0xfe80#128 <<< 112) 10]

/-- `_is_private` -/
def isPrivate (address : IpAddress) : Bool :=
  blockedNetworks.any fun network => network.contains address

/-- Why a URL is refused. -/
inductive UrlRefusal where
  | error (text : Text)
  | scheme (scheme : Text)
  | missingDomain
  | missingHostname
  | target (hostname : Text) (address : IpAddress)
  | redirectAddress (address : IpAddress)
  | redirectTarget (hostname : Text) (address : IpAddress)

/-- The text of a refusal, given `str(address)`. -/
def UrlRefusal.message (str : IpAddress → Text) : UrlRefusal → Text
  | error text => text
  | scheme given =>
      "Only http/https allowed, got '".toList ++
        (if given = [] then "none".toList else given) ++ ['\'']
  | missingDomain => "Missing domain".toList
  | missingHostname => "Missing hostname".toList
  | target hostname address =>
      "Blocked: ".toList ++ hostname ++
        " resolves to private/internal address ".toList ++ str address
  | redirectAddress address =>
      "Redirect target is a private address: ".toList ++ str address
  | redirectTarget hostname address =>
      "Redirect target ".toList ++ hostname ++
        " resolves to private address ".toList ++ str address

/-- What the guard meets with: the rules of URLs, and the addresses that
`getaddrinfo` gives for a host, unless it raises `gaierror`. -/
structure NetworkView where
  rules : UrlRules
  resolver : Text → Option (List Text)

namespace NetworkView

variable (view : NetworkView)

/-- The first address of a host that is private. -/
def privateAddress? (hostname : Text) : Option IpAddress :=
  match view.resolver hostname with
  | none => none
  | some infos => (infos.filterMap ipAddress).find? isPrivate

/-- `validate_url_target`: why the URL is refused -/
def validateUrlTarget (url : Text) : Option UrlRefusal :=
  match urlparse view.rules url with
  | .error text => some (.error text)
  | .ok parts =>
      if parts.scheme ≠ "http".toList ∧ parts.scheme ≠ "https".toList then
        some (.scheme parts.scheme)
      else if parts.netloc = [] then some .missingDomain
      else
        match parts.hostname view.rules with
        | none => some .missingHostname
        | some hostname =>
            (view.privateAddress? hostname).map (.target hostname)

/-- `validate_resolved_url`: why the URL is refused -/
def validateResolvedUrl (url : Text) : Option UrlRefusal :=
  match urlparse view.rules url with
  | .error _ => none
  | .ok parts =>
      match parts.hostname view.rules with
      | none => none
      | some hostname =>
          match ipAddress hostname with
          | some address =>
              if isPrivate address then some (.redirectAddress address)
              else none
          | none =>
              (view.privateAddress? hostname).map (.redirectTarget hostname)

end NetworkView

/-! ## URLs in a command -/

/-- `[^\s\"'`;|<>]` -/
def isUrlChar (char : Char) : Bool :=
  !isSpace char && !("\"'\x60;|<>".toList.contains char)

/-- A letter of the pattern, of any case; the long `s` is one of `s`. -/
def matchesLetter (letter char : Char) : Bool :=
  char == letter || char == letter.toUpper || (letter == 's' && char == 'ſ')

/-- What follows a word of the pattern at the beginning of a text. -/
def afterLetters : Text → Text → Option Text
  | [], text => some text
  | _ :: _, [] => none
  | letter :: letters, char :: text =>
      if matchesLetter letter char then afterLetters letters text else none

/-- The length of the match of `_URL_RE` at the beginning of a text; zero if
there is none. -/
def urlMatchLength (text : Text) : Nat :=
  let matchFrom := fun front : Text =>
    match afterLetters front text with
    | none => none
    | some rest =>
        let urlChars := rest.takeWhile isUrlChar
        if urlChars = [] then none else some (front.length + urlChars.length)
  ((matchFrom "https://".toList).or (matchFrom "http://".toList)).getD 0

/-- The matches, from some characters on that belong to the last one. -/
def findUrlsFrom : Nat → Text → List Text
  | _, [] => []
  | skip + 1, _ :: text => findUrlsFrom skip text
  | 0, char :: text =>
      match urlMatchLength (char :: text) with
      | 0 => findUrlsFrom 0 text
      | length + 1 =>
          (char :: text).take (length + 1) :: findUrlsFrom length text

/-- `_URL_RE.finditer(command)` -/
def findUrls (command : Text) : List Text := findUrlsFrom 0 command

/-- `contains_internal_url` -/
def NetworkView.containsInternalUrl (view : NetworkView) (command : Text) :
    Bool :=
  (findUrls command).any fun url => (view.validateUrlTarget url).isSome

/-! ## What the guard should do -/

/-- The address lies in a blocked network, or stands for one that does. -/
def Internal (address : IpAddress) : Prop :=
  isPrivate address ∨
    ∃ inner, address.ipv4Mapped = some inner ∧ isPrivate inner

namespace NetworkView

variable (view : NetworkView)

/-- The host of a URL. -/
def hostOf (url : Text) : Option Text :=
  match urlparse view.rules url with
  | .error _ => none
  | .ok parts => parts.hostname view.rules

/-- The addresses that the host of a URL resolves to. -/
def resolvedAddresses (url : Text) : List IpAddress :=
  match view.hostOf url with
  | none => []
  | some hostname =>
      ((view.resolver hostname).getD []).filterMap ipAddress

/-- The guard refuses a URL, also where it is read in a command. -/
structure Refuses (url command : Text) : Prop where
  target : (view.validateUrlTarget url).isSome
  resolved : (view.validateResolvedUrl url).isSome
  inCommand : view.containsInternalUrl command = true

/-- The host resolves to an address that itself lies in a blocked network. -/
def LiesInBlocked (url : Text) : Prop :=
  ∃ address ∈ view.resolvedAddresses url, isPrivate address = true

/-- The URL is one of the web, with a host. -/
def IsWebUrl (url : Text) : Prop :=
  ∃ parts, urlparse view.rules url = .ok parts ∧
    (parts.scheme = "http".toList ∨ parts.scheme = "https".toList) ∧
    parts.netloc ≠ [] ∧ (parts.hostname view.rules).isSome

/-- When all refuse: an address itself lies in a blocked network, which for a
host that is an address is the host, and in the command a URL is found whose
address does, or that is none of the web. -/
structure Caught (url command : Text) : Prop where
  target : view.IsWebUrl url → view.LiesInBlocked url
  host : ∀ hostname ∈ view.hostOf url,
    match ipAddress hostname with
    | some address => isPrivate address = true
    | none => view.LiesInBlocked url
  found : ∃ found ∈ findUrls command,
    view.IsWebUrl found → view.LiesInBlocked found

end NetworkView

/-! ## When it does -/

section Guard

variable {view : NetworkView} {url command hostname : Text}

theorem privateAddress?_isSome :
    (view.privateAddress? hostname).isSome ↔
      ∃ address ∈ ((view.resolver hostname).getD []).filterMap ipAddress,
        isPrivate address = true := by
  rw [NetworkView.privateAddress?]
  cases view.resolver hostname with
  | none => simp
  | some infos => exact List.find?_isSome

theorem liesInBlocked_iff (isHost : view.hostOf url = some hostname) :
    view.LiesInBlocked url ↔ (view.privateAddress? hostname).isSome := by
  rw [privateAddress?_isSome, NetworkView.LiesInBlocked,
    NetworkView.resolvedAddresses, isHost]

theorem hostOf_eq {parts : SplitUrl}
    (isSplit : urlparse view.rules url = .ok parts) :
    view.hostOf url = parts.hostname view.rules := by
  rw [NetworkView.hostOf, isSplit]

/-- A URL is refused if it is none of the web, or lies in a blocked
network. -/
theorem validateUrlTarget_isSome :
    (view.validateUrlTarget url).isSome ↔
      (view.IsWebUrl url → view.LiesInBlocked url) := by
  rw [NetworkView.validateUrlTarget]
  split
  · next error isError =>
      refine iff_of_true rfl ?_
      rintro ⟨parts, isSplit, _⟩
      rw [isError] at isSplit
      cases isSplit
  · next parts isSplit =>
      have isWeb : view.IsWebUrl url ↔
          (parts.scheme = "http".toList ∨ parts.scheme = "https".toList) ∧
            parts.netloc ≠ [] ∧ (parts.hostname view.rules).isSome := by
        constructor
        · rintro ⟨others, isOther, holds⟩
          rw [isSplit] at isOther
          cases isOther
          exact holds
        · exact fun holds => ⟨parts, isSplit, holds⟩
      rw [isWeb]
      split
      · next otherScheme =>
          refine iff_of_true rfl fun holds => ?_
          rcases holds.1 with isHttp | isHttps
          · exact absurd isHttp otherScheme.1
          · exact absurd isHttps otherScheme.2
      · next isScheme =>
          rw [not_and_or, not_not, not_not] at isScheme
          split
          · next noNetloc =>
              exact iff_of_true rfl fun holds => absurd noNetloc holds.2.1
          · next hasNetloc =>
              cases isHost : parts.hostname view.rules with
              | none =>
                  refine iff_of_true rfl fun holds => ?_
                  cases holds.2.2
              | some hostname =>
                  rw [Option.isSome_map, liesInBlocked_iff
                    ((hostOf_eq isSplit).trans isHost)]
                  constructor
                  · exact fun isPrivate _ => isPrivate
                  · exact fun lies => lies ⟨isScheme, hasNetloc, rfl⟩

/-- A URL that has been fetched is refused if its address, or those that its
host resolves to, lie in a blocked network. -/
theorem validateResolvedUrl_isSome (isHost : view.hostOf url = some hostname) :
    (view.validateResolvedUrl url).isSome ↔
      match ipAddress hostname with
      | some address => isPrivate address = true
      | none => view.LiesInBlocked url := by
  rw [liesInBlocked_iff isHost, NetworkView.validateResolvedUrl]
  rw [NetworkView.hostOf] at isHost
  cases isSplit : urlparse view.rules url with
  | error text =>
      rw [isSplit] at isHost
      cases isHost
  | ok parts =>
      rw [isSplit] at isHost
      dsimp only at isHost ⊢
      rw [isHost]
      dsimp only
      cases ipAddress hostname with
      | none => rw [Option.isSome_map]
      | some address =>
          dsimp only
          split
          · next private_ => exact iff_of_true rfl private_
          · next notPrivate => exact iff_of_false (nofun) notPrivate

theorem containsInternalUrl_iff :
    view.containsInternalUrl command = true ↔
      ∃ found ∈ findUrls command,
        view.IsWebUrl found → view.LiesInBlocked found := by
  rw [NetworkView.containsInternalUrl, List.any_eq_true]
  exact exists_congr fun found =>
    and_congr_right fun _ => validateUrlTarget_isSome

end Guard

/-! ## A URL that stands alone -/

/-- A text that goes on with a character that no URL has, or ends. -/
def StopsUrl (back : Text) : Prop := ∀ char ∈ back.head?, isUrlChar char = false

/-- Letters that URLs have, also as capitals. -/
def UrlLetters (letters : Text) : Prop :=
  ∀ letter ∈ letters,
    isUrlChar letter = true ∧ isUrlChar letter.toUpper = true

theorem isUrlChar_of_matchesLetter {letter char : Char}
    (isLetter : isUrlChar letter = true ∧ isUrlChar letter.toUpper = true)
    (isMatch : matchesLetter letter char = true) : isUrlChar char = true := by
  rw [matchesLetter, Bool.or_eq_true, Bool.or_eq_true, Bool.and_eq_true,
    beq_iff_eq, beq_iff_eq, beq_iff_eq, beq_iff_eq] at isMatch
  rcases isMatch with (rfl | rfl) | ⟨_, rfl⟩
  · exact isLetter.1
  · exact isLetter.2
  · decide

theorem afterLetters_length {letters text rest : Text}
    (isAfter : afterLetters letters text = some rest) :
    letters.length + rest.length = text.length := by
  induction letters generalizing text with
  | nil =>
      cases isAfter
      exact Nat.zero_add _
  | cons letter letters induction =>
      cases text with
      | nil => cases isAfter
      | cons char text =>
          obtain ⟨_, isAfter⟩ := Option.ite_none_right_eq_some.mp isAfter
          rw [List.length_cons, List.length_cons, ← induction isAfter]
          exact Nat.add_right_comm _ _ _

/-- Behind a URL that ends the letters are looked for in the URL only. -/
theorem afterLetters_append {letters url back : Text}
    (areLetters : UrlLetters letters) (stops : StopsUrl back) :
    afterLetters letters (url ++ back) =
      (afterLetters letters url).map (· ++ back) := by
  induction letters generalizing url with
  | nil => rfl
  | cons letter letters induction =>
      have isLetter := areLetters letter List.mem_cons_self
      cases url with
      | nil =>
          cases back with
          | nil => rfl
          | cons char back =>
              refine if_neg fun isMatch => ?_
              have isUrl := isUrlChar_of_matchesLetter isLetter isMatch
              rw [stops char rfl] at isUrl
              cases isUrl
      | cons char url =>
          rw [List.cons_append, afterLetters, afterLetters]
          split
          · exact induction fun other member => areLetters other
              (List.mem_cons_of_mem letter member)
          · rfl

theorem takeWhile_stops {rest back : Text} (stops : StopsUrl back) :
    (rest ++ back).takeWhile isUrlChar = rest.takeWhile isUrlChar := by
  induction rest with
  | nil =>
      cases back with
      | nil => rfl
      | cons char back =>
          rw [List.nil_append, List.takeWhile_cons_of_neg]
          · rfl
          · rw [stops char rfl]
            exact Bool.false_ne_true
  | cons char rest induction =>
      rw [List.cons_append, List.takeWhile_cons, List.takeWhile_cons, induction]

/-- The match of one of the beginnings of the pattern. -/
def matchFrom (text front : Text) : Option Nat :=
  match afterLetters front text with
  | none => none
  | some rest =>
      let urlChars := rest.takeWhile isUrlChar
      if urlChars = [] then none else some (front.length + urlChars.length)

theorem urlMatchLength_eq (text : Text) :
    urlMatchLength text =
      ((matchFrom text "https://".toList).or
        (matchFrom text "http://".toList)).getD 0 := rfl

theorem urlLetters_of_all {letters : Text}
    (areLetters : letters.all fun letter =>
      isUrlChar letter && isUrlChar letter.toUpper) : UrlLetters letters :=
  fun letter member =>
    Bool.and_eq_true_iff.mp (List.all_eq_true.mp areLetters letter member)

theorem urlLetters_fronts :
    UrlLetters "https://".toList ∧ UrlLetters "http://".toList :=
  ⟨urlLetters_of_all (by decide), urlLetters_of_all (by decide)⟩

theorem matchFrom_append {url back front : Text}
    (areLetters : UrlLetters front) (stops : StopsUrl back) :
    matchFrom (url ++ back) front = matchFrom url front := by
  rw [matchFrom, matchFrom, afterLetters_append areLetters stops]
  cases afterLetters front url with
  | none => rfl
  | some rest =>
      rw [Option.map_some]
      dsimp only
      rw [takeWhile_stops stops]

theorem urlMatchLength_append {url back : Text} (stops : StopsUrl back) :
    urlMatchLength (url ++ back) = urlMatchLength url := by
  rw [urlMatchLength_eq, urlMatchLength_eq,
    matchFrom_append urlLetters_fronts.1 stops,
    matchFrom_append urlLetters_fronts.2 stops]

theorem urlMatchLength_le (text : Text) :
    urlMatchLength text ≤ text.length := by
  have matched {front : Text} {length : Nat}
      (isMatch : matchFrom text front = some length) :
      length ≤ text.length := by
    rw [matchFrom] at isMatch
    split at isMatch
    · cases isMatch
    · next rest isAfter =>
        obtain ⟨_, same⟩ := Option.ite_none_left_eq_some.mp isMatch
        rw [← Option.some.inj same, ← afterLetters_length isAfter]
        exact Nat.add_le_add_left (List.takeWhile_prefix _).length_le _
  rw [urlMatchLength_eq]
  cases isMatch : (matchFrom text "https://".toList).or
      (matchFrom text "http://".toList) with
  | none => exact Nat.zero_le _
  | some length =>
      rcases Option.or_eq_some_iff.mp isMatch with isHttps | ⟨_, isHttp⟩
      · exact matched isHttps
      · exact matched isHttp

/-- What is before a character that no URL has does not matter for what is
found from there on. -/
theorem findUrlsFrom_append {skip : Nat} {front back : Text}
    (le : skip ≤ front.length) (stops : StopsUrl back) :
    ∃ found, findUrlsFrom skip (front ++ back) =
      found ++ findUrlsFrom 0 back := by
  induction front generalizing skip with
  | nil =>
      cases Nat.le_zero.mp le
      exact ⟨[], rfl⟩
  | cons char front induction =>
      cases skip with
      | succ skip => exact induction (Nat.le_of_succ_le_succ le)
      | zero =>
          have le := urlMatchLength_le (char :: front)
          rw [← urlMatchLength_append stops] at le
          rw [List.cons_append] at le ⊢
          rw [findUrlsFrom]
          split
          · exact induction (Nat.zero_le _)
          · next length isMatch =>
              rw [isMatch] at le
              obtain ⟨found, same⟩ := induction (Nat.le_of_succ_le_succ le)
              exact ⟨_ :: found, congrArg _ same⟩

/-- A URL between characters that no URL has is found in a command. -/
theorem mem_findUrls {front url back : Text} {separator : Char}
    (isUrl : urlMatchLength url = url.length) (nonempty : url ≠ [])
    (separates : isUrlChar separator = false) (stops : StopsUrl back) :
    url ∈ findUrls (url ++ back) ∧
      url ∈ findUrls (front ++ separator :: (url ++ back)) := by
  have atUrl : url ∈ findUrlsFrom 0 (url ++ back) := by
    obtain ⟨char, rest, rfl⟩ := List.exists_cons_of_ne_nil nonempty
    rw [List.cons_append, findUrlsFrom, ← List.cons_append,
      urlMatchLength_append stops, isUrl]
    dsimp only [List.length_cons]
    rw [← List.length_cons, List.take_left]
    exact List.mem_cons_self
  refine ⟨atUrl, ?_⟩
  have stopsBefore : StopsUrl (separator :: (url ++ back)) := by
    rintro char ⟨rfl⟩
    exact separates
  obtain ⟨found, same⟩ :=
    findUrlsFrom_append (Nat.zero_le front.length) stopsBefore
  have noMatch : urlMatchLength ([] ++ separator :: (url ++ back)) = 0 :=
    urlMatchLength_append stopsBefore
  rw [List.nil_append] at noMatch
  rw [findUrls, same, findUrlsFrom, noMatch]
  exact List.mem_append_right _ atUrl

/-! ## What the guard refuses -/

/-- A URL that resolves to an internal address is refused everywhere just if
it is caught. -/
theorem refuses_iff (view : NetworkView) (url command : Text)
    (internal : ∃ address ∈ view.resolvedAddresses url, Internal address) :
    view.Refuses url command ↔ view.Caught url command := by
  obtain ⟨hostname, isHost⟩ : ∃ hostname, view.hostOf url = some hostname := by
    obtain ⟨address, isResolved, _⟩ := internal
    rw [NetworkView.resolvedAddresses] at isResolved
    split at isResolved
    · cases isResolved
    · next hostname isHost => exact ⟨hostname, isHost⟩
  constructor
  · rintro ⟨target, resolved, inCommand⟩
    refine ⟨validateUrlTarget_isSome.mp target, fun other isOther => ?_,
      containsInternalUrl_iff.mp inCommand⟩
    rw [isHost] at isOther
    cases isOther
    exact (validateResolvedUrl_isSome isHost).mp resolved
  · rintro ⟨target, host, found⟩
    exact ⟨validateUrlTarget_isSome.mpr target,
      (validateResolvedUrl_isSome isHost).mpr (host hostname isHost),
      containsInternalUrl_iff.mpr found⟩

/-- A URL that resolves into a blocked network, and whose host is no other
address, is refused in every command in which it stands alone. -/
theorem refuses_of_standsAlone {view : NetworkView} {front url back : Text}
    {separator : Char} (lies : view.LiesInBlocked url)
    (host : ∀ hostname ∈ view.hostOf url,
      ∀ address, ipAddress hostname = some address → isPrivate address = true)
    (isUrl : urlMatchLength url = url.length) (nonempty : url ≠ [])
    (separates : isUrlChar separator = false) (stops : StopsUrl back) :
    view.Refuses url (front ++ separator :: (url ++ back)) := by
  obtain ⟨address, isResolved, private_⟩ := lies
  refine (refuses_iff view url _ ⟨address, isResolved, .inl private_⟩).mpr
    ⟨fun _ => ⟨address, isResolved, private_⟩, fun hostname isHost => ?_, url,
      (mem_findUrls isUrl nonempty separates stops).2,
      fun _ => ⟨address, isResolved, private_⟩⟩
  split
  · next other isAddress => exact host hostname isHost other isAddress
  · exact ⟨address, isResolved, private_⟩

/-- A view in which every host resolves to one address. -/
def oneAddressView (address : String) : NetworkView :=
  ⟨⟨List.map Char.toLower, fun _ => none⟩, fun _ => some [address.toList]⟩

theorem loopback_refused :
    (oneAddressView "127.0.0.1").Refuses
      "http://metadata.example:8080/".toList
      "curl http://metadata.example:8080/".toList :=
  (refuses_iff _ _ _ ⟨.v4 (ofOctets 127 0 0 1), by decide, .inl (by decide)⟩).mpr
    ⟨fun _ => ⟨.v4 (ofOctets 127 0 0 1), by decide, by decide⟩,
      fun hostname isHost => by
        have same : hostname = "metadata.example".toList :=
          Option.some.inj (isHost.symm.trans (by decide))
        subst same
        exact ⟨.v4 (ofOctets 127 0 0 1), by decide, by decide⟩,
      "http://metadata.example:8080/".toList, by decide,
      fun _ => ⟨.v4 (ofOctets 127 0 0 1), by decide, by decide⟩⟩

/-- The address of version 6 that stands for the own host. -/
def mappedLoopback : IpAddress := .v6 0xffff7f000001#128

/-- An address of version 6 that stands for the own host passes. -/
theorem mapped_passes :
    (∃ address ∈ (oneAddressView "::ffff:127.0.0.1").resolvedAddresses
        "http://metadata.example/".toList, Internal address) ∧
      (oneAddressView "::ffff:127.0.0.1").validateUrlTarget
        "http://metadata.example/".toList = none ∧
      (oneAddressView "::ffff:127.0.0.1").validateResolvedUrl
        "http://metadata.example/".toList = none ∧
      (oneAddressView "::ffff:127.0.0.1").containsInternalUrl
        "curl http://metadata.example/".toList = false :=
  ⟨⟨mappedLoopback, by decide,
      .inr ⟨.v4 (ofOctets 127 0 0 1), by decide, by decide⟩⟩,
    rfl, rfl, by decide⟩

end AgentSchedBench.Agent
