import Mathlib.Data.Int.Notation
import Mathlib.Tactic.Common
import NexaStays.OutboundUrl

/-!
# Fetching a calendar

The fetch follows redirects by itself and checks every hop anew: the URL, the addresses that
its host name has at that moment, and the address it connects to. The resolver and the server
answer each hop as they like. The parser of URLs is that of the platform.
-/
namespace NexaStays.OutboundFetch

open NexaStays.SqlText (trim)
open NexaStays.OutboundUrl

structure Url where
  protocol : String
  username : String
  password : String
  hostname : String
  port : String
  pathname : String
  search : String
  hash : String
  deriving DecidableEq, Repr

/-- `new URL(input, base)` and `toString` of the platform. -/
structure UrlParser where
  parse : String → Option String → Option Url
  serialize : Url → String

/-- Parsing what a URL is written as gives the same URL. -/
def UrlParser.Faithful (parser : UrlParser) : Prop :=
  ∀ input base url, parser.parse input base = some url →
    parser.parse (parser.serialize url) none = some url

inductive FetchError where
  | badRequest (message : String)
  | failed
  deriving DecidableEq, Repr

def notAllowed : FetchError := .badRequest "Calendar URL host is not allowed"

/-- What is asked of the URL of a hop. -/
def checkUrl (url : Url) : Except FetchError Unit :=
  if url.protocol ≠ "https:" then .error (.badRequest "Calendar URL must use HTTPS")
  else if isBlockedOutboundHostname url.hostname then .error notAllowed
  else if url.username ≠ "" ∨ url.password ≠ "" then
    .error (.badRequest "Calendar URL must not include credentials")
  else .ok ()

def validateOutboundHttpsUrl (parser : UrlParser) (raw : String) : Except FetchError String :=
  match parser.parse (trim raw) none with
  | none => .error (.badRequest "Invalid calendar URL")
  | some url => do
    checkUrl url
    pure (parser.serialize url)

structure ResolvedAddress where
  address : String
  family : ℕ
  deriving DecidableEq, Repr

/-- The resolver of the service, over the answers of the name service. -/
def resolvePublicAddressesOnly (lookup : String → Option (List ResolvedAddress)) (hostname : String) :
    Except FetchError (List ResolvedAddress) :=
  let host := stripBrackets hostname
  if isIP host = 4 ∨ isIP host = 6 then
    if isBlockedIpAddress host then .error notAllowed
    else .ok [⟨host, isIP host⟩]
  else
    match lookup host with
    | none => .error notAllowed
    | some results =>
      if results = [] then .error notAllowed
      else if results.any fun row => isBlockedIpAddress row.address then .error notAllowed
      else .ok (results.map fun r => ⟨r.address, if r.family = 6 then 6 else 4⟩)

/-- The values of a header. -/
inductive Header where
  | absent
  | one (value : String)
  | many (values : List String)
  deriving DecidableEq, Repr

def Header.first : Header → Option String
  | absent => none
  | one value => some value
  | many values => values.head?

structure OutboundHopResult where
  statusCode : ℤ
  location : Header
  body : String
  deriving DecidableEq, Repr

structure OutboundHttpsResponse where
  statusCode : ℤ
  location : Header
  body : String
  deriving DecidableEq, Repr

def isRedirect (status : ℤ) : Bool := 300 ≤ status && status < 400

/-- One request of the fetch. -/
structure Request where
  hop : ℕ
  url : Url
  pinned : ResolvedAddress
  deriving DecidableEq, Repr

/-- What the fetch runs against, hop by hop: whether it was aborted, what the resolver answers
for a host name, and what the server does with a request. -/
structure Surroundings where
  aborted : ℕ → Bool
  resolve : ℕ → String → Except FetchError (List ResolvedAddress)
  requestHop : Request → Except FetchError OutboundHopResult

/-- The address that the request of a hop is pinned to. -/
def pin (world : Surroundings) (hop : ℕ) (url : Url) : Except FetchError ResolvedAddress :=
  match world.resolve hop url.hostname with
  | .error e => .error e
  | .ok [] => .error notAllowed
  | .ok (pinned :: others) =>
    if (pinned :: others).any fun addr => isBlockedIpAddress addr.address then .error notAllowed
    else .ok pinned

/-- Where a redirect leads. -/
def nextUrl (parser : UrlParser) (currentUrl : String) (location : Header) :
    Except FetchError String :=
  match location.first.filter fun l => trim l ≠ "" with
  | none => .error (.badRequest "Invalid calendar redirect")
  | some location =>
    match parser.parse location (some currentUrl) with
    | none => .error (.badRequest "Invalid calendar redirect")
    | some next => validateOutboundHttpsUrl parser (parser.serialize next)

/-- The loop of the fetch with `left` redirects to go: the outcome and the requests that were
issued. -/
def fetchFrom (parser : UrlParser) (world : Surroundings) :
    (left hop : ℕ) → String → Except FetchError OutboundHttpsResponse × List Request
  | left, hop, currentUrl =>
    if world.aborted hop then (.error (.badRequest "Calendar request aborted"), [])
    else
      match parser.parse currentUrl none with
      | none => (.error .failed, [])
      | some url =>
        match pin world hop url with
        | .error e => (.error e, [])
        | .ok pinned =>
          let request : Request := ⟨hop, url, pinned⟩
          match world.requestHop request with
          | .error e => (.error e, [request])
          | .ok response =>
            if isRedirect response.statusCode then
              match left with
              | 0 => (.error (.badRequest "Calendar URL redirect limit exceeded"), [request])
              | left + 1 =>
                match nextUrl parser currentUrl response.location with
                | .error e => (.error e, [request])
                | .ok next =>
                  let rest := fetchFrom parser world left (hop + 1) next
                  (rest.1, request :: rest.2)
            else
              (.ok ⟨response.statusCode, response.location, response.body⟩, [request])

/-- `MAX_OUTBOUND_REDIRECTS`. -/
def maxOutboundRedirects : ℕ := 3

def fetchOutboundHttps (parser : UrlParser) (world : Surroundings) (rawUrl : String)
    (maxRedirects : Option ℕ) : Except FetchError OutboundHttpsResponse × List Request :=
  match validateOutboundHttpsUrl parser rawUrl with
  | .error e => (.error e, [])
  | .ok currentUrl =>
    fetchFrom parser world (maxRedirects.getD maxOutboundRedirects) 0 currentUrl

variable {parser : UrlParser} {world : Surroundings}

/-- A request goes to an allowed URL, pinned to an address that the resolver has just given for
its host name and that is not blocked. -/
structure Safe (world : Surroundings) (r : Request) : Prop where
  https : r.url.protocol = "https:"
  username : r.url.username = ""
  password : r.url.password = ""
  hostname : isBlockedOutboundHostname r.url.hostname = false
  resolved : ∃ addresses, world.resolve r.hop r.url.hostname = .ok addresses ∧ r.pinned ∈ addresses
  address : isBlockedIpAddress r.pinned.address = false

/-- The text is a URL that was checked. -/
def Checked (parser : UrlParser) (currentUrl : String) : Prop :=
  ∃ url, checkUrl url = .ok () ∧ parser.parse currentUrl none = some url

theorem checkUrl_ok {url : Url} (h : checkUrl url = .ok ()) : url.protocol = "https:" ∧
    url.username = "" ∧ url.password = "" ∧ isBlockedOutboundHostname url.hostname = false := by
  unfold checkUrl at h
  split_ifs at h with hprotocol hhostname hcredentials
  refine ⟨not_not.mp hprotocol, ?_, ?_, by simpa using hhostname⟩
  · by_contra hne
    exact hcredentials (Or.inl hne)
  · by_contra hne
    exact hcredentials (Or.inr hne)

/-- A URL that was validated is parsed to what was checked. -/
theorem checked_of_validate (hparser : parser.Faithful) {raw currentUrl : String}
    (h : validateOutboundHttpsUrl parser raw = .ok currentUrl) : Checked parser currentUrl := by
  unfold validateOutboundHttpsUrl at h
  split at h
  · cases h
  · next url hurl =>
    cases hcheck : checkUrl url with
    | error e =>
      rw [hcheck] at h
      cases h
    | ok u =>
      rw [hcheck] at h
      obtain rfl := Except.ok.inj h
      exact ⟨url, hcheck, hparser _ _ _ hurl⟩

theorem checked_of_nextUrl (hparser : parser.Faithful) {currentUrl next : String}
    {location : Header} (h : nextUrl parser currentUrl location = .ok next) : Checked parser next := by
  unfold nextUrl at h
  split at h
  · cases h
  · split at h
    · cases h
    · exact checked_of_validate hparser h

theorem pin_ok {hop : ℕ} {url : Url} {pinned : ResolvedAddress} (h : pin world hop url = .ok pinned) :
    (∃ addresses, world.resolve hop url.hostname = .ok addresses ∧ pinned ∈ addresses) ∧
      isBlockedIpAddress pinned.address = false := by
  unfold pin at h
  split at h
  · cases h
  · cases h
  · next first rest hresolve =>
    split_ifs at h with hblocked
    obtain rfl := Except.ok.inj h
    refine ⟨⟨_, hresolve, List.mem_cons_self⟩, ?_⟩
    have hnone := List.any_eq_false.mp (Bool.not_eq_true _ ▸ hblocked) first List.mem_cons_self
    exact Bool.not_eq_true _ ▸ hnone

/-- What the loop may do from a hop on: it stops before or after its request, returns the
response, or follows a redirect. -/
inductive Hops (parser : UrlParser) (world : Surroundings) :
    ℕ → ℕ → String → Except FetchError OutboundHttpsResponse → List Request → Prop where
  | stop {left hop currentUrl} (e : FetchError) : Hops parser world left hop currentUrl (.error e) []
  | refuse {left hop currentUrl url pinned} (e : FetchError)
    (hurl : parser.parse currentUrl none = some url) (hpin : pin world hop url = .ok pinned) :
    Hops parser world left hop currentUrl (.error e) [⟨hop, url, pinned⟩]
  | respond {left hop currentUrl url pinned} (response : OutboundHttpsResponse)
    (hurl : parser.parse currentUrl none = some url) (hpin : pin world hop url = .ok pinned)
    (hstatus : isRedirect response.statusCode = false) :
    Hops parser world left hop currentUrl (.ok response) [⟨hop, url, pinned⟩]
  | follow {left hop currentUrl url pinned location next outcome requests}
    (hurl : parser.parse currentUrl none = some url) (hpin : pin world hop url = .ok pinned)
    (hnext : nextUrl parser currentUrl location = .ok next)
    (rest : Hops parser world left (hop + 1) next outcome requests) :
    Hops parser world (left + 1) hop currentUrl outcome (⟨hop, url, pinned⟩ :: requests)

variable (parser world) in
theorem hops_fetchFrom (left hop : ℕ) (currentUrl : String) :
    Hops parser world left hop currentUrl (fetchFrom parser world left hop currentUrl).1
      (fetchFrom parser world left hop currentUrl).2 := by
  induction left generalizing hop currentUrl with
  | zero =>
    unfold fetchFrom
    split_ifs
    · exact .stop _
    · split
      · exact .stop _
      · next url hurl =>
        split
        · exact .stop _
        · next pinned hpin =>
          simp only
          split
          · exact .refuse _ hurl hpin
          · next response _ =>
            split_ifs with hredirect
            · exact .refuse _ hurl hpin
            · exact .respond _ hurl hpin (by simpa using hredirect)
  | succ left ih =>
    unfold fetchFrom
    split_ifs
    · exact .stop _
    · split
      · exact .stop _
      · next url hurl =>
        split
        · exact .stop _
        · next pinned hpin =>
          simp only
          split
          · exact .refuse _ hurl hpin
          · next response _ =>
            split_ifs with hredirect
            · split
              · exact .refuse _ hurl hpin
              · next next hnext => exact .follow hurl hpin hnext (ih _ _)
            · exact .respond _ hurl hpin (by simpa using hredirect)

section Hops

variable {left hop : ℕ} {currentUrl : String} {outcome : Except FetchError OutboundHttpsResponse}
  {requests : List Request}

theorem safe_request {url : Url} {pinned : ResolvedAddress} (hchecked : Checked parser currentUrl)
    (hurl : parser.parse currentUrl none = some url) (hpin : pin world hop url = .ok pinned) :
    Safe world ⟨hop, url, pinned⟩ := by
  obtain ⟨checked, hcheck, hparse⟩ := hchecked
  obtain rfl := Option.some.inj (hurl.symm.trans hparse)
  obtain ⟨hprotocol, husername, hpassword, hhostname⟩ := checkUrl_ok hcheck
  obtain ⟨hresolved, haddress⟩ := pin_ok hpin
  exact ⟨hprotocol, husername, hpassword, hhostname, hresolved, haddress⟩

/-- From a URL that was checked, every hop checks the URL that it hands on. -/
theorem Hops.safe (h : Hops parser world left hop currentUrl outcome requests)
    (hparser : parser.Faithful) (hchecked : Checked parser currentUrl) :
    ∀ r ∈ requests, Safe world r := by
  induction h with
  | stop => simp
  | refuse _ hurl hpin | respond _ hurl hpin =>
    intro r hr
    obtain rfl := List.mem_singleton.mp hr
    exact safe_request hchecked hurl hpin
  | follow hurl hpin hnext _ ih =>
    intro r hr
    obtain rfl | hr := List.mem_cons.mp hr
    · exact safe_request hchecked hurl hpin
    · exact ih (checked_of_nextUrl hparser hnext) r hr

/-- Every request but the last one uses up a redirect. -/
theorem Hops.length_le (h : Hops parser world left hop currentUrl outcome requests) :
    requests.length ≤ left + 1 := by
  induction h with
  | stop => simp
  | refuse | respond => simp
  | follow _ _ _ _ ih => simpa using ih

theorem Hops.not_redirect (h : Hops parser world left hop currentUrl outcome requests)
    {response : OutboundHttpsResponse} (houtcome : outcome = .ok response) :
    isRedirect response.statusCode = false := by
  induction h with
  | stop | refuse => cases houtcome
  | respond _ _ _ hstatus => exact Except.ok.inj houtcome ▸ hstatus
  | follow _ _ _ _ ih => exact ih houtcome

/-- The requests are issued hop after hop. -/
theorem Hops.in_order (h : Hops parser world left hop currentUrl outcome requests) :
    requests.map (·.hop) = List.range' hop requests.length := by
  induction h with
  | stop => rfl
  | refuse | respond => rfl
  | follow _ _ _ _ ih => simp [ih, List.range'_succ]

end Hops

/-- Whatever the resolver and the server answer at each hop, every request is safe, there is one
for each redirect and one more at most, and what is returned is no redirect. -/
theorem fetch_safe (hparser : parser.Faithful) (world : Surroundings) (rawUrl : String)
    (maxRedirects : Option ℕ) :
    (∀ r ∈ (fetchOutboundHttps parser world rawUrl maxRedirects).2, Safe world r) ∧
      (fetchOutboundHttps parser world rawUrl maxRedirects).2.length ≤
        maxRedirects.getD maxOutboundRedirects + 1 ∧
      (fetchOutboundHttps parser world rawUrl maxRedirects).2.map (·.hop) =
        List.range (fetchOutboundHttps parser world rawUrl maxRedirects).2.length ∧
      ∀ response, (fetchOutboundHttps parser world rawUrl maxRedirects).1 = .ok response →
        isRedirect response.statusCode = false := by
  unfold fetchOutboundHttps
  split
  · refine ⟨by simp, by simp, rfl, fun response h => by cases h⟩
  · next currentUrl hvalidate =>
    have hhops := hops_fetchFrom parser world (maxRedirects.getD maxOutboundRedirects) 0
      currentUrl
    refine ⟨hhops.safe hparser (checked_of_validate hparser hvalidate), hhops.length_le, ?_,
      fun response h => hhops.not_redirect h⟩
    rw [hhops.in_order, List.range_eq_range']

section Sample

def calendarUrl (pathname : String) : Url :=
  { protocol := "https:"
    username := ""
    password := ""
    hostname := "calendar.example"
    port := ""
    pathname
    search := ""
    hash := "" }

/-- The parser on the URLs of the sample. -/
def sampleParser : UrlParser where
  parse input base :=
    if input = "https://calendar.example/feed.ics" then some (calendarUrl "/feed.ics")
    else if input = "https://calendar.example/moved.ics" then some (calendarUrl "/moved.ics")
    else if input = "/moved.ics" ∧ base = some "https://calendar.example/feed.ics" then
      some (calendarUrl "/moved.ics")
    else none
  serialize url := url.protocol ++ "//" ++ url.hostname ++ url.pathname

theorem faithful_sampleParser : sampleParser.Faithful := by
  intro input base url h
  simp only [sampleParser] at h
  split_ifs at h <;> obtain rfl := Option.some.inj h <;> decide

def sampleWorld : Surroundings where
  aborted _ := false
  resolve _ _ := .ok [⟨"93.184.216.34", 4⟩]
  requestHop r :=
    if r.url.pathname = "/feed.ics" then .ok ⟨302, .one "/moved.ics", ""⟩
    else .ok ⟨200, .absent, "BEGIN:VCALENDAR"⟩

/-- Two requests, of which the second one returns the calendar. -/
theorem fetch_safe_moved :
    let fetched := fetchOutboundHttps sampleParser sampleWorld "https://calendar.example/feed.ics" none
    fetched.1 = .ok ⟨200, .absent, "BEGIN:VCALENDAR"⟩ ∧ fetched.2.length = 2 ∧
      ∀ r ∈ fetched.2, Safe sampleWorld r := by
  intro fetched
  exact ⟨by decide +kernel, by decide +kernel,
    (fetch_safe faithful_sampleParser sampleWorld "https://calendar.example/feed.ics" none).1⟩

end Sample

/-- The resolver of the service answers with the host itself, or with what the name service says
of it, where no address is blocked. -/
theorem resolvePublicAddressesOnly_ok {lookup : String → Option (List ResolvedAddress)}
    {hostname : String} {addresses : List ResolvedAddress}
    (h : resolvePublicAddressesOnly lookup hostname = .ok addresses) :
    ∀ a ∈ addresses, isBlockedIpAddress a.address = false ∧
      (a.address = stripBrackets hostname ∨
        ∃ results, lookup (stripBrackets hostname) = some results ∧
          ∃ row ∈ results, row.address = a.address) := by
  unfold resolvePublicAddressesOnly at h
  simp only at h
  split_ifs at h with hliteral hblocked
  · obtain rfl := Except.ok.inj h
    intro a ha
    obtain rfl := List.mem_singleton.mp ha
    exact ⟨by simpa using hblocked, Or.inl rfl⟩
  · split at h
    · cases h
    · next results hlookup =>
      split_ifs at h with hempty hany
      obtain rfl := Except.ok.inj h
      intro a ha
      obtain ⟨row, hrow, rfl⟩ := List.mem_map.mp ha
      have hnone := List.any_eq_false.mp (Bool.not_eq_true _ ▸ hany) row hrow
      exact ⟨by simpa using hnone, Or.inr ⟨results, hlookup, row, hrow, rfl⟩⟩

end NexaStays.OutboundFetch
