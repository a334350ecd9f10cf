import WebLens.Crawl.SchemaTypes
import WebLens.Lib.Fields
import WebLens.Network.Policies

/-!
# Fetching a page

One fetch: the requests that the HTTP client makes when the servers redirect it, the check of every
redirect, and the dialer that every new connection goes through. The client calls the check with the
requests made so far before it follows a redirect, and the dialer for every connection. How the
servers reply, which connections are opened and what their names resolve to is arbitrary.

The check never sees the first request, so a fetch stays on a host only if its target is there.
-/

set_option autoImplicit false
set_option relaxedAutoImplicit false

namespace WebLens.Crawl

open Lib.Utf8
open Network (Address)

/-! ### The dialer -/

/-- `netip.Addr`: no address when it is not valid, and the zone of an IPv6 address. -/
structure Addr where
  address : Option Address
  zone : String := ""
deriving DecidableEq

/-- `isLocalAddress`. -/
def isLocalAddress (addr : Addr) : Bool :=
  match addr.address with
  | none => false
  | some address => address.unmap.isLoopback || address.unmap.isPrivate

/-- Whether an address has a zone after `Unmap`, which drops the one of a mapped address. -/
def isZoned (addr : Addr) (address : Address) : Bool :=
  decide (addr.zone ≠ "") &&
    match address.unmap with
    | .ipv4 _ => false
    | .ipv6 _ => true

/-- `isPublicAddress`: no prefix contains an address with a zone. -/
def isPublicAddress (addr : Addr) : Bool :=
  match addr.address with
  | none => false
  | some address =>
    if isZoned addr address then
      address.unmap.isGlobalUnicast && !address.unmap.isPrivate && !address.unmap.isLoopback &&
        !address.unmap.isLinkLocalUnicast && !address.unmap.isLinkLocalMulticast &&
        !address.unmap.isMulticast && !address.unmap.isUnspecified
    else Network.isPublicAddress (some address)

/-- `SafeDialer.addressAllowed`. -/
def addressAllowed (localTargetsOnly : Bool) (addr : Addr) : Bool :=
  if localTargetsOnly then isLocalAddress addr else isPublicAddress addr

/-- Why a fetch fails. -/
inductive FetchError
  | unsafeAddress
  | outOfScopeRedirect
  | deadlineExceeded
  | dns
  | timeout
  | other
deriving DecidableEq

/-- `categorizeFetchError`. -/
def categorizeFetchError : FetchError → String
  | .unsafeAddress => "ssrf_blocked"
  | .outOfScopeRedirect => "redirect_out_of_scope"
  | .deadlineExceeded => "timeout"
  | .dns => "dns_failed"
  | .timeout => "timeout"
  | .other => "network_failed"

/-- The functions of the standard library that take addresses and URLs apart; `parseUrl` is that of
a request. -/
structure NetLibrary where
  splitHostPort : String → Option (String × String)
  parseAddr : String → Option Addr
  Url : Type
  parseUrl : String → Option Url
  /-- `request.URL.Parse(location)`. -/
  resolve : Url → String → Option Url
  hostname : Url → String
  text : Url → String
  equalFold : String → String → Bool

variable (net : NetLibrary)

/-- A call of the dialer: the destination, and what its name would resolve to at that time. -/
structure Dial where
  destination : String
  answer : Except FetchError (List Addr)

/-- `SafeDialer.DialContext`: the address that is dialled. -/
def dialContext (localTargetsOnly : Bool) (dial : Dial) : Except FetchError Addr :=
  match net.splitHostPort dial.destination with
  | none => .error .other
  | some (host, _) =>
    match net.parseAddr host with
    | some literal =>
      if addressAllowed localTargetsOnly literal then .ok literal else .error .unsafeAddress
    | none =>
      match dial.answer with
      | .error error => .error error
      | .ok [] => .error .other
      | .ok (first :: rest) =>
        if (first :: rest).all (addressAllowed localTargetsOnly) then .ok first
        else .error .unsafeAddress

/-- Whether the host of a destination is a name, which is resolved. -/
def IsName (destination : String) : Prop :=
  ∃ host port, net.splitHostPort destination = some (host, port) ∧ net.parseAddr host = none

/-- The address dialled is allowed, and so is every address of a name. -/
theorem allowed_of_dialContext {localTargetsOnly : Bool} {dial : Dial} {addr : Addr}
    (h : dialContext net localTargetsOnly dial = .ok addr) :
    addressAllowed localTargetsOnly addr = true ∧
      (IsName net dial.destination → ∃ answer, dial.answer = .ok answer ∧ addr ∈ answer ∧
        ∀ other ∈ answer, addressAllowed localTargetsOnly other = true) := by
  unfold dialContext at h
  cases hsplit : net.splitHostPort dial.destination with
  | none =>
    rw [hsplit] at h
    exact absurd h (by simp)
  | some parts =>
    obtain ⟨host, port⟩ := parts
    simp only [hsplit] at h
    cases hliteral : net.parseAddr host with
    | some literal =>
      simp only [hliteral] at h
      by_cases hallowed : addressAllowed localTargetsOnly literal = true
      · rw [if_pos hallowed] at h
        obtain rfl := Except.ok.inj h
        refine ⟨hallowed, ?_⟩
        rintro ⟨host', port', hsplit', hname⟩
        have hhost : host = host' :=
          congrArg Prod.fst (Option.some.inj (hsplit.symm.trans hsplit'))
        rw [← hhost, hliteral] at hname
        exact absurd hname (Option.some_ne_none literal)
      · rw [if_neg hallowed] at h
        exact absurd h (by simp)
    | none =>
      simp only [hliteral] at h
      cases hanswer : dial.answer with
      | error error =>
        simp only [hanswer] at h
        exact absurd h (by simp)
      | ok answer =>
        cases answer with
        | nil =>
          simp only [hanswer] at h
          exact absurd h (by simp)
        | cons first rest =>
          simp only [hanswer] at h
          by_cases hall : (first :: rest).all (addressAllowed localTargetsOnly) = true
          · rw [if_pos hall] at h
            obtain rfl := Except.ok.inj h
            have hallowed := List.all_eq_true.1 hall
            exact ⟨hallowed first List.mem_cons_self,
              fun _ ↦ ⟨first :: rest, rfl, List.mem_cons_self, hallowed⟩⟩
          · rw [if_neg hall] at h
            exact absurd h (by simp)

/-! ### The client -/

/-- A response: its status, the `Location` header, empty when absent, the values of the two headers
that the fetch keeps, and the body, if it can be read. -/
structure Reply where
  status : ℕ
  location : String := ""
  contentType : ByteString := []
  xRobotsTag : List ByteString := []
  body : Option ByteString := some []

/-- What happens to one request: the connections that are opened and the response. -/
structure Exchange where
  dials : List Dial := []
  reply : Except FetchError Reply

/-- `RedirectHop`. -/
structure RedirectHop where
  url : String
  statusCode : ℕ
deriving DecidableEq

/-- `requestPolicy`. -/
structure RequestPolicy where
  hostname : String
  maxRedirects : ℕ
  redirects : List RedirectHop := []

/-- `redirectBehavior`, for a request without a body. -/
def isRedirect (status : ℕ) : Bool :=
  [301, 302, 303, 307, 308].contains status

/-- The hop that a check records: the last request and the status of the response to it. -/
def lastHop (previous : List net.Url) (status : ℕ) : List RedirectHop :=
  (previous.getLast?.map fun url ↦ { url := net.text url, statusCode := status }).toList

/-- `CheckRedirect`, before the request that the response with the status redirects to. -/
def checkRedirect (policy : RequestPolicy) (request : net.Url) (previous : List net.Url)
    (status : ℕ) : Except FetchError RequestPolicy :=
  if policy.maxRedirects < previous.length then .error .other
  else if net.equalFold (net.hostname request) policy.hostname = false then
    .error .outOfScopeRedirect
  else .ok { policy with redirects := policy.redirects ++ lastHop net previous status }

/-- What a fetch has done: the requests, the calls of the dialer, and how it ended. -/
structure Outcome where
  requests : List net.Url
  dials : List Dial := []
  redirects : List RedirectHop
  final : Except FetchError (net.Url × Reply)

/-- The outcome with the connections of an earlier request. -/
def Outcome.withDials (outcome : Outcome net) (dials : List Dial) : Outcome net :=
  { outcome with dials := dials ++ outcome.dials }

/-- `client.Do`: the requests from one on, after some previous ones. A request that nothing more
happens to runs into its deadline. -/
def doRequests (policy : RequestPolicy) :
    List Exchange → net.Url → List net.Url → Outcome net
  | [], request, previous =>
    { requests := previous ++ [request], redirects := policy.redirects
      final := .error .deadlineExceeded }
  | exchange :: exchanges, request, previous =>
    let stop (final : Except FetchError (net.Url × Reply)) : Outcome net :=
      { requests := previous ++ [request], dials := exchange.dials
        redirects := policy.redirects, final := final }
    match exchange.reply with
    | .error error => stop (.error error)
    | .ok reply =>
      if isRedirect reply.status = false ∨ reply.location = "" then stop (.ok (request, reply))
      else
        match net.resolve request reply.location with
        | none => stop (.error .other)
        | some next =>
          match checkRedirect net policy next (previous ++ [request]) reply.status with
          | .error error => stop (.error error)
          | .ok policy =>
            (doRequests policy exchanges next (previous ++ [request])).withDials net exchange.dials

/-- `FetchResult`, without durations and error messages. -/
structure FetchResult where
  requestedUrl : String
  finalUrl : String := ""
  statusCode : ℕ := 0
  contentType : ByteString := []
  xRobotsTag : ByteString := []
  redirects : List RedirectHop := []
  body : ByteString := []
  bodyTruncated : Bool := false
  errorCode : String := ""

/-- `strings.Join(values, "\\n")`. -/
def joinLines (values : List ByteString) : ByteString :=
  Lib.Fields.join 0x0A values

/-- What `Fetch` makes of a response. -/
def readReply (result : FetchResult) (maxBodyBytes : ℕ) (redirects : List RedirectHop)
    (url : String) (reply : Reply) : FetchResult :=
  let result := { result with
    finalUrl := url
    statusCode := reply.status
    contentType := reply.contentType
    xRobotsTag := bounded (joinLines reply.xRobotsTag) 512
    redirects := redirects }
  match reply.body with
  | none => { result with errorCode := "body_read_failed" }
  | some body =>
    { result with body := body.take maxBodyBytes, bodyTruncated := maxBodyBytes < body.length }

/-- What `Fetch` has done, and its result. -/
structure Fetched where
  requests : List net.Url
  dials : List Dial
  result : FetchResult

/-- `Fetcher.Fetch`. -/
def fetch (targetUrl hostname : String) (maxBodyBytes maxRedirects : ℕ)
    (exchanges : List Exchange) : Fetched net :=
  let result : FetchResult := { requestedUrl := targetUrl }
  match net.parseUrl targetUrl with
  | none => { requests := [], dials := [], result := { result with errorCode := "invalid_url" } }
  | some url =>
    let outcome := doRequests net { hostname := hostname, maxRedirects := maxRedirects } exchanges
      url []
    { requests := outcome.requests
      dials := outcome.dials
      result := match outcome.final with
        | .error error => { result with errorCode := categorizeFetchError error }
        | .ok (final, reply) =>
          readReply result maxBodyBytes outcome.redirects (net.text final) reply }

/-! ### Confinement -/

/-- The status of a response. -/
def Exchange.status (exchange : Exchange) : ℕ :=
  match exchange.reply with
  | .error _ => 0
  | .ok reply => reply.status

/-- The hops between some requests: each request but the last, with the status of the response to
it. -/
def followedHops (requests : List net.Url) (exchanges : List Exchange) : List RedirectHop :=
  (requests.dropLast.zip exchanges).map fun hop ↦
    { url := net.text hop.1, statusCode := hop.2.status }

/-- The hops do not depend on what happens to the last request and later. -/
theorem followedHops_append (previous : List net.Url) (request : net.Url)
    (past exchanges : List Exchange) (hlength : past.length = previous.length) :
    followedHops net (previous ++ [request]) (past ++ exchanges) =
      followedHops net (previous ++ [request]) past := by
  unfold followedHops
  rw [List.dropLast_concat]
  have hzip : (previous ++ []).zip (past ++ exchanges) = previous.zip past ++ [].zip exchanges :=
    List.zip_append hlength.symm
  rw [List.append_nil, List.zip_nil_left, List.append_nil] at hzip
  rw [hzip]

/-- A redirect that is followed adds its hop. -/
theorem followedHops_concat (previous : List net.Url) (request next : net.Url)
    (past : List Exchange) (exchange : Exchange) (hlength : past.length = previous.length) :
    followedHops net (previous ++ [request] ++ [next]) (past ++ [exchange]) =
      followedHops net (previous ++ [request]) past ++
        [{ url := net.text request, statusCode := exchange.status }] := by
  unfold followedHops
  rw [List.dropLast_concat, List.dropLast_concat, List.zip_append hlength.symm, List.map_append]
  rfl

/-- What holds of the requests made so far, which the exchanges answer. -/
structure Confined (hostname : String) (maxRedirects : ℕ) (target : net.Url)
    (requests : List net.Url) : Prop where
  length_le : requests.length ≤ maxRedirects + 1
  head : requests.head? = some target
  scope : ∀ request ∈ requests.tail, net.equalFold (net.hostname request) hostname = true

/-- A redirect that passes the check keeps the requests confined, and records the hop. -/
theorem confined_of_checkRedirect {policy policy' : RequestPolicy} {target next : net.Url}
    {previous : List net.Url} {request : net.Url} {status : ℕ}
    (hcheck : checkRedirect net policy next (previous ++ [request]) status = .ok policy')
    (hconfined : Confined net policy.hostname policy.maxRedirects target (previous ++ [request])) :
    Confined net policy.hostname policy.maxRedirects target (previous ++ [request] ++ [next]) ∧
      policy' = { policy with
        redirects := policy.redirects ++ [{ url := net.text request, statusCode := status }] } := by
  unfold checkRedirect at hcheck
  by_cases hlimit : policy.maxRedirects < (previous ++ [request]).length
  · rw [if_pos hlimit] at hcheck
    exact absurd hcheck (by simp)
  rw [if_neg hlimit] at hcheck
  by_cases hhost : net.equalFold (net.hostname next) policy.hostname = false
  · rw [if_pos hhost] at hcheck
    exact absurd hcheck (by simp)
  rw [if_neg hhost] at hcheck
  have hhop : lastHop net (previous ++ [request]) status =
      [{ url := net.text request, statusCode := status }] := by
    unfold lastHop
    rw [List.getLast?_concat]
    rfl
  rw [hhop] at hcheck
  refine ⟨⟨?_, ?_, ?_⟩, (Except.ok.inj hcheck).symm⟩
  · rw [List.length_append, List.length_singleton]
    omega
  · rw [List.head?_append, hconfined.head]
    rfl
  · intro url hurl
    have hne : previous ++ [request] ≠ [] := by simp
    rw [List.tail_append_of_ne_nil hne] at hurl
    rcases List.mem_append.1 hurl with hold | hnew
    · exact hconfined.scope url hold
    · obtain rfl := List.mem_singleton.1 hnew
      exact Bool.not_eq_false _ ▸ hhost

/-- The requests from one on stay confined, and a response comes with the hops that led to it. -/
theorem confined_doRequests {target : net.Url} (exchanges : List Exchange) :
    ∀ (policy : RequestPolicy) (request : net.Url) (previous : List net.Url)
      (past : List Exchange), past.length = previous.length →
      Confined net policy.hostname policy.maxRedirects target (previous ++ [request]) →
      policy.redirects = followedHops net (previous ++ [request]) past →
      Confined net policy.hostname policy.maxRedirects target
          (doRequests net policy exchanges request previous).requests ∧
        (doRequests net policy exchanges request previous).redirects =
          followedHops net (doRequests net policy exchanges request previous).requests
            (past ++ exchanges) := by
  induction exchanges with
  | nil =>
    intro policy request previous past _ hconfined hhops
    unfold doRequests
    rw [List.append_nil]
    exact ⟨hconfined, hhops⟩
  | cons exchange exchanges ih =>
    intro policy request previous past hlength hconfined hhops
    have hstop : policy.redirects =
        followedHops net (previous ++ [request]) (past ++ exchange :: exchanges) :=
      hhops.trans (followedHops_append net previous request past _ hlength).symm
    unfold doRequests
    cases hreply : exchange.reply with
    | error error => exact ⟨hconfined, hstop⟩
    | ok reply =>
      by_cases hfinal : isRedirect reply.status = false ∨ reply.location = ""
      · simp only [if_pos hfinal]
        exact ⟨hconfined, hstop⟩
      simp only [if_neg hfinal]
      cases hnext : net.resolve request reply.location with
      | none => exact ⟨hconfined, hstop⟩
      | some next =>
        simp only
        cases hcheck : checkRedirect net policy next (previous ++ [request]) reply.status with
        | error error => exact ⟨hconfined, hstop⟩
        | ok policy' =>
          -- The redirect is followed: the hypothesis applies to the requests with this one.
          obtain ⟨hnextConfined, rfl⟩ := confined_of_checkRedirect net hcheck hconfined
          have hstatus : exchange.status = reply.status := by
            unfold Exchange.status
            rw [hreply]
          have hlength' : (past ++ [exchange]).length = (previous ++ [request]).length := by
            rw [List.length_append, List.length_append, hlength]
            rfl
          have hrun := ih
            { policy with redirects := policy.redirects ++
                [{ url := net.text request, statusCode := reply.status }] }
            next (previous ++ [request]) (past ++ [exchange]) hlength' hnextConfined (by
              rw [followedHops_concat net previous request next past exchange hlength, hstatus,
                ← hhops])
          rw [List.append_assoc, List.singleton_append] at hrun
          exact hrun

/-! ### The fetch -/

/-- A failure has a code. -/
theorem categorizeFetchError_ne (error : FetchError) : categorizeFetchError error ≠ "" := by
  cases error <;> decide

/-- A fetch makes at most one request more than its redirects, and every one but the target's own
is on the host, so all are when the target is; what it dials is allowed, with every address of a
name; and on success its redirects are the hops that it followed. -/
theorem fetch_confined (targetUrl hostname : String) (maxBodyBytes maxRedirects : ℕ)
    (exchanges : List Exchange) (localTargetsOnly : Bool) :
    (fetch net targetUrl hostname maxBodyBytes maxRedirects exchanges).requests.length ≤
        maxRedirects + 1 ∧
      (∀ request ∈
        (fetch net targetUrl hostname maxBodyBytes maxRedirects exchanges).requests.tail,
        net.equalFold (net.hostname request) hostname = true) ∧
      (∀ target, net.parseUrl targetUrl = some target →
        net.equalFold (net.hostname target) hostname = true →
        ∀ request ∈ (fetch net targetUrl hostname maxBodyBytes maxRedirects exchanges).requests,
          net.equalFold (net.hostname request) hostname = true) ∧
      (∀ dial ∈ (fetch net targetUrl hostname maxBodyBytes maxRedirects exchanges).dials,
        ∀ addr, dialContext net localTargetsOnly dial = .ok addr →
          addressAllowed localTargetsOnly addr = true ∧
            (IsName net dial.destination → ∃ answer, dial.answer = .ok answer ∧ addr ∈ answer ∧
              ∀ other ∈ answer, addressAllowed localTargetsOnly other = true)) ∧
      ((fetch net targetUrl hostname maxBodyBytes maxRedirects exchanges).result.errorCode = "" →
        (fetch net targetUrl hostname maxBodyBytes maxRedirects exchanges).result.redirects =
          followedHops net
            (fetch net targetUrl hostname maxBodyBytes maxRedirects exchanges).requests
            exchanges) := by
  have hdials : ∀ dial ∈ (fetch net targetUrl hostname maxBodyBytes maxRedirects exchanges).dials,
      ∀ addr, dialContext net localTargetsOnly dial = .ok addr →
        addressAllowed localTargetsOnly addr = true ∧
          (IsName net dial.destination → ∃ answer, dial.answer = .ok answer ∧ addr ∈ answer ∧
            ∀ other ∈ answer, addressAllowed localTargetsOnly other = true) :=
    fun _ _ _ h ↦ allowed_of_dialContext net h
  cases hparse : net.parseUrl targetUrl with
  | none =>
    have hfetch : fetch net targetUrl hostname maxBodyBytes maxRedirects exchanges =
        { requests := [], dials := []
          result := { requestedUrl := targetUrl, errorCode := "invalid_url" } } := by
      unfold fetch
      rw [hparse]
    rw [hfetch]
    refine ⟨Nat.zero_le _, fun _ h ↦ (by simp at h), fun _ h ↦ (by simp at h),
      fun _ h ↦ (by simp at h), fun h ↦ absurd h (by simp)⟩
  | some url =>
    have hstart : Confined net hostname maxRedirects url ([] ++ [url]) :=
      ⟨by simp, rfl, fun _ h ↦ (by simp at h)⟩
    obtain ⟨hconfined, hhops⟩ := confined_doRequests net exchanges
      { hostname := hostname, maxRedirects := maxRedirects } url [] [] rfl hstart rfl
    have hrequests :
        (fetch net targetUrl hostname maxBodyBytes maxRedirects exchanges).requests =
          (doRequests net { hostname := hostname, maxRedirects := maxRedirects } exchanges url
            []).requests := by
      unfold fetch
      rw [hparse]
    refine ⟨?_, ?_, ?_, hdials, ?_⟩
    · rw [hrequests]
      exact hconfined.length_le
    · rw [hrequests]
      exact hconfined.scope
    · intro target htarget hhost request hrequest
      obtain rfl := Option.some.inj htarget
      rw [hrequests] at hrequest
      have hhead := hconfined.head
      cases hlist : (doRequests net { hostname := hostname, maxRedirects := maxRedirects }
          exchanges url []).requests with
      | nil =>
        rw [hlist] at hrequest
        exact absurd hrequest List.not_mem_nil
      | cons first rest =>
        rw [hlist] at hrequest hhead
        obtain rfl := Option.some.inj hhead
        rcases List.mem_cons.1 hrequest with rfl | hlater
        · exact hhost
        · refine hconfined.scope request ?_
          rw [hlist]
          exact hlater
    · intro hsuccess
      rw [hrequests]
      unfold fetch at hsuccess ⊢
      simp only [hparse] at hsuccess ⊢
      cases hfinal : (doRequests net { hostname := hostname, maxRedirects := maxRedirects }
          exchanges url []).final with
      | error error =>
        simp only [hfinal] at hsuccess
        exact absurd hsuccess (categorizeFetchError_ne error)
      | ok final =>
        simp only
        unfold readReply
        cases final.2.body <;> exact hhops

/-! ### A target on another host -/

/-- A library that knows one URL, written `https://` and its host. -/
def oneUrlLibrary : NetLibrary where
  splitHostPort destination :=
    if destination = "other.test:443" then some ("other.test", "443") else none
  parseAddr _ := none
  Url := String
  parseUrl text := if text = "https://other.test" then some text else none
  resolve _ _ := none
  hostname url := if url = "https://other.test" then "other.test" else ""
  text url := url
  equalFold left right := decide (left = right)

/-- The target itself is requested on whatever host it is. -/
theorem fetch_leaves_host :
    ∃ request ∈ (fetch oneUrlLibrary "https://other.test" "fixture.test" 1024 3 []).requests,
      oneUrlLibrary.equalFold (oneUrlLibrary.hostname request) "fixture.test" = false :=
  ⟨"https://other.test", List.mem_cons_self, by decide⟩

end WebLens.Crawl
