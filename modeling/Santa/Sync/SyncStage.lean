import Mathlib.Algebra.Group.Nat.Defs
import Santa.Library.Runs

/-!
The requests of a sync stage: up to five attempts with growing pauses, and an XSRF
token fetched when the server refuses one. The network is a state with a reply to
each request, so that a server may answer the same request differently each time.
A reply that times out has no data, no response and no error.
-/
namespace SantaSyncStage

def kDefaultXSRFTokenHeader : String := "X-XSRF-TOKEN"
def kXSRFTokenHeader : String := "X-XSRF-TOKEN-HEADER"

def NSURLErrorNotConnectedToInternet : Int := -1009
def NSURLErrorCannotParseResponse : Int := -1017
def NSURLErrorClientCertificateRequired : Int := -1206

abbrev Headers := String → Option String

def Headers.setValue (h : Headers) (value : Option String) (field : String) : Headers :=
  fun f => if f.toLower = field.toLower then value else h f

inductive SNTSyncContentEncoding where
  | none
  | gzip
  | deflate
  deriving DecidableEq, Repr

structure Request (Data : Type) where
  url : String
  headers : Headers
  body : Option Data

structure Response where
  statusCode : Int
  allHeaderFields : Headers

structure Reply (Data : Type) where
  data : Option Data
  response : Option Response
  error : Option Int

section
variable {Net Data : Type}

def Reply.statusCode (r : Reply Data) : Int := (r.response.map (·.statusCode)).getD 0

def Reply.errorCode (r : Reply Data) : Int := r.error.getD 0

/-- What the URL session does; `nanosleep` lets the network change during a pause. -/
structure URLSession (Net Data : Type) where
  perform : Net → Request Data → Nat → Reply Data × Net
  nanosleep : Net → Nat → Net

structure SyncState where
  machineID : String
  xsrfToken : Option String
  xsrfTokenHeader : Option String
  contentEncoding : SNTSyncContentEncoding

def SyncState.xsrfHeader (s : SyncState) : String :=
  s.xsrfTokenHeader.getD kDefaultXSRFTokenHeader

def SyncState.hasToken (s : SyncState) : Bool := !(s.xsrfToken.getD "").isEmpty

inductive Sent (Data : Type) where
  | attempt (request : Request Data) (reply : Reply Data)
  | fetch (response : Option Response)

structure Stage (Net Data : Type) where
  net : Net
  syncState : SyncState
  sent : List (Sent Data)
  slept : Nat

def Stage.new (net : Net) (syncState : SyncState) : Stage Net Data := ⟨net, syncState, [], 0⟩

/-! ### Requests -/

def contentEncodingHeader : SNTSyncContentEncoding → Option String
  | .none => none
  | .gzip => some "gzip"
  | .deflate => some "deflate"

def protectedHeaders : List String :=
  ["Content-Encoding", "Content-Length", "Content-Type", "Connection", "Host",
    "Proxy-Authenticate", "Proxy-Authorization", "WWW-Authenticate"]

def addExtraRequestHeaders (extra : List (String × String)) (h : Headers) : Headers :=
  extra.foldl (fun h field =>
    if field.1 ∈ protectedHeaders then h else h.setValue (some field.2) field.1) h

/-- `compress` gives nil where zlib fails; the body then goes out as it is. -/
def requestWithData (s : SyncState) (stageURL : String) (extra : List (String × String))
    (compress : SNTSyncContentEncoding → Data → Option Data) (requestBody : Data)
    (contentType : String) : Request Data :=
  let contentType := if contentType.isEmpty then "application/octet-stream" else contentType
  let headers : Headers := Headers.setValue (fun _ => none) (some contentType) "Content-Type"
  let headers := headers.setValue s.xsrfToken s.xsrfHeader
  let compressed :=
    if s.contentEncoding = .none then none else compress s.contentEncoding requestBody
  let headers :=
    if compressed.isSome then
      headers.setValue (contentEncodingHeader s.contentEncoding) "Content-Encoding"
    else headers
  ⟨stageURL, addExtraRequestHeaders extra headers, some (compressed.getD requestBody)⟩

def SyncState.takeToken (s : SyncState) (headers : Headers) : SyncState :=
  let header := headers kXSRFTokenHeader
  { s with
    xsrfToken := headers kDefaultXSRFTokenHeader
    xsrfTokenHeader := if (header.getD "").isEmpty then none else header }

def xsrfRequest (s : SyncState) : Request Data := ⟨"xsrf/" ++ s.machineID, fun _ => none, none⟩

/-- Whether a new token was taken over; none is asked for while the session has one. -/
def fetchXSRFToken (session : URLSession Net Data) (p : Stage Net Data) :
    Bool × Stage Net Data :=
  if p.syncState.hasToken then (false, p)
  else
    let (reply, net) := session.perform p.net (xsrfRequest p.syncState) 10
    let p := { p with net := net, sent := p.sent ++ [.fetch reply.response] }
    match reply.response.filter (·.statusCode = 200) with
    | some response =>
        (true, { p with syncState := p.syncState.takeToken response.allHeaderFields })
    | none => (false, p)

/-- A 403, or what some servers make of it where clients show a certificate. -/
def Reply.refused (r : Reply Data) : Bool :=
  r.statusCode = 403 || r.errorCode = NSURLErrorClientCertificateRequired ||
    r.errorCode = NSURLErrorCannotParseResponse

def maxAttempts : Nat := 5

def performAttempt (session : URLSession Net Data) (timeout : Nat) (p : Stage Net Data)
    (request : Request Data) (number : Nat) : Reply Data × Stage Net Data :=
  let p :=
    if 2 ≤ number then
      { p with net := session.nanosleep p.net (2 ^ number), slept := p.slept + 2 ^ number }
    else p
  let (reply, net) := session.perform p.net request timeout
  (reply, { p with net := net, sent := p.sent ++ [.attempt request reply] })

def renewToken (session : URLSession Net Data) (p : Stage Net Data) (request : Request Data)
    (reply : Reply Data) : Request Data × Stage Net Data :=
  if reply.refused then
    let (fetched, p) := fetchXSRFToken session p
    if fetched then
      ({ request with
        headers := request.headers.setValue p.syncState.xsrfToken p.syncState.xsrfHeader }, p)
    else (request, p)
  else (request, p)

def Reply.ends (r : Reply Data) : Bool :=
  r.statusCode = 200 || r.errorCode = NSURLErrorNotConnectedToInternet

def performFrom (session : URLSession Net Data) (timeout : Nat) (p : Stage Net Data)
    (request : Request Data) : Nat → Reply Data × Stage Net Data
  | 0 =>
      let (reply, p) := performAttempt session timeout p request maxAttempts
      if reply.ends then (reply, p) else (reply, (renewToken session p request reply).2)
  | left + 1 =>
      let (reply, p) := performAttempt session timeout p request (maxAttempts - (left + 1))
      if reply.ends then (reply, p)
      else
        let (request, p) := renewToken session p request reply
        performFrom session timeout p request left

/-- The data of a 200, which may be nil, or the code of the failure. -/
def dataFromRequest (session : URLSession Net Data) (timeout : Nat) (p : Stage Net Data)
    (request : Request Data) : Except Int (Option Data) × Stage Net Data :=
  let (reply, p) := performFrom session timeout p request (maxAttempts - 1)
  if reply.statusCode = 200 then (.ok reply.data, p)
  else (.error (reply.error.getD reply.statusCode), p)

structure Call (Data : Type) where
  stageURL : String
  extra : List (String × String)
  compress : SNTSyncContentEncoding → Data → Option Data
  requestBody : Data
  contentType : String
  timeout : Nat

def Call.request (c : Call Data) (s : SyncState) : Request Data :=
  requestWithData s c.stageURL c.extra c.compress c.requestBody c.contentType

def step (session : URLSession Net Data) (p : Stage Net Data) (c : Call Data) :
    Option (Stage Net Data) :=
  some (dataFromRequest session c.timeout p (c.request p.syncState)).2

/-! ### What has been sent -/

def tries : List (Sent Data) → List (Request Data × Reply Data)
  | [] => []
  | .attempt request reply :: rest => (request, reply) :: tries rest
  | .fetch _ :: rest => tries rest

def fetches : List (Sent Data) → List (Option Response)
  | [] => []
  | .attempt _ _ :: rest => fetches rest
  | .fetch response :: rest => response :: fetches rest

def SyncState.after (s : SyncState) (response : Option Response) : SyncState :=
  match response.filter (·.statusCode = 200) with
  | some response => s.takeToken response.allHeaderFields
  | none => s

theorem fetchXSRFToken_eq (session : URLSession Net Data) (p : Stage Net Data)
    (missing : p.syncState.hasToken = false) :
    ∃ net response, fetchXSRFToken session p =
      ((response.filter (·.statusCode = 200)).isSome, { p with
        net := net
        sent := p.sent ++ [.fetch response]
        syncState := p.syncState.after response }) := by
  refine ⟨(session.perform p.net (xsrfRequest p.syncState) 10).2,
    (session.perform p.net (xsrfRequest p.syncState) 10).1.response, ?_⟩
  simp only [fetchXSRFToken, missing, Bool.false_eq_true, if_false, SyncState.after]
  split <;> rename_i filtered <;> simp [filtered]

def replay (s : SyncState) : List (Sent Data) → SyncState
  | [] => s
  | .attempt _ _ :: rest => replay s rest
  | .fetch response :: rest => replay (s.after response) rest

def Carries (s : SyncState) (request : Request Data) : Prop :=
  request.headers s.xsrfHeader = s.xsrfToken

/-- Every attempt carries the token the session has at its time, and a token is asked for only
    while there is none. -/
def Carried (s : SyncState) : List (Sent Data) → Prop
  | [] => True
  | .attempt request _ :: rest => Carries s request ∧ Carried s rest
  | .fetch response :: rest => s.hasToken = false ∧ Carried (s.after response) rest

theorem tries_append (xs ys : List (Sent Data)) : tries (xs ++ ys) = tries xs ++ tries ys := by
  induction xs with
  | nil => rfl
  | cons x xs ih => cases x <;> simp [tries, ih]

theorem fetches_append (xs ys : List (Sent Data)) :
    fetches (xs ++ ys) = fetches xs ++ fetches ys := by
  induction xs with
  | nil => rfl
  | cons x xs ih => cases x <;> simp [fetches, ih]

theorem replay_append (s : SyncState) (xs ys : List (Sent Data)) :
    replay s (xs ++ ys) = replay (replay s xs) ys := by
  induction xs generalizing s with
  | nil => rfl
  | cons x xs ih => cases x <;> simp [replay, ih]

theorem carried_append (s : SyncState) (xs ys : List (Sent Data)) :
    Carried s (xs ++ ys) ↔ Carried s xs ∧ Carried (replay s xs) ys := by
  induction xs generalizing s with
  | nil => simp [Carried, replay]
  | cons x xs ih => cases x <;> simp [Carried, replay, ih, and_assoc]

/-- `new` was sent between the two, and the session state is what it brought. -/
structure Worked (p q : Stage Net Data) (new : List (Sent Data)) : Prop where
  sent : q.sent = p.sent ++ new
  state : q.syncState = replay p.syncState new

theorem Worked.trans {p q r : Stage Net Data} {xs ys : List (Sent Data)} (first : Worked p q xs)
    (second : Worked q r ys) : Worked p r (xs ++ ys) := by
  constructor
  · rw [second.sent, first.sent, List.append_assoc]
  · rw [second.state, first.state, replay_append]

/-! ### One request -/

theorem performAttempt_spec (session : URLSession Net Data) (timeout : Nat)
    (p : Stage Net Data) (request : Request Data) (number : Nat) :
    ∃ reply q, performAttempt session timeout p request number = (reply, q) ∧
      Worked p q [.attempt request reply] ∧
      q.slept = p.slept + if 2 ≤ number then 2 ^ number else 0 := by
  unfold performAttempt
  split
  · exact ⟨_, _, rfl, ⟨rfl, rfl⟩, rfl⟩
  · exact ⟨_, _, rfl, ⟨rfl, rfl⟩, rfl⟩

theorem setValue_self (h : Headers) (value : Option String) (field : String) :
    h.setValue value field field = value := if_pos rfl

theorem carries_after (s : SyncState) (response : Option Response) (request : Request Data)
    (carries : Carries s request) :
    Carries (s.after response)
      (if (response.filter (·.statusCode = 200)).isSome then
        { request with headers :=
            request.headers.setValue (s.after response).xsrfToken (s.after response).xsrfHeader }
      else request) := by
  cases taken : response.filter (·.statusCode = 200) with
  | none => simpa [SyncState.after, taken] using carries
  | some r => exact setValue_self _ _ _

theorem renewToken_spec (session : URLSession Net Data) (p : Stage Net Data)
    (request : Request Data) (reply : Reply Data) :
    ∃ request' q new, renewToken session p request reply = (request', q) ∧ Worked p q new ∧
      q.slept = p.slept ∧ tries new = [] ∧
      (fetches new).length ≤ (if reply.refused then 1 else 0) ∧
      (request'.url = request.url ∧ request'.body = request.body) ∧
      (Carries p.syncState request → Carried p.syncState new ∧ Carries q.syncState request') := by
  have none : ∃ new : List (Sent Data), Worked p p new ∧ tries new = [] ∧
      (fetches new).length = 0 ∧ (Carries p.syncState request → Carried p.syncState new) :=
    ⟨[], ⟨(List.append_nil _).symm, rfl⟩, rfl, rfl, fun _ => trivial⟩
  obtain ⟨new, worked, noTries, noFetches, carried⟩ := none
  unfold renewToken
  cases refused : reply.refused with
  | false =>
    exact ⟨request, p, new, rfl, worked, rfl, noTries, by simp [noFetches], ⟨rfl, rfl⟩,
      fun carries => ⟨carried carries, carries⟩⟩
  | true =>
    cases missing : p.syncState.hasToken with
    | true =>
      have kept : fetchXSRFToken session p = (false, p) := if_pos missing
      simp only [if_true, kept]
      exact ⟨request, p, new, rfl, worked, rfl, noTries, by simp [noFetches], ⟨rfl, rfl⟩,
        fun carries => ⟨carried carries, carries⟩⟩
    | false =>
      obtain ⟨net, response, asked⟩ := fetchXSRFToken_eq session p missing
      simp only [if_true, asked]
      refine ⟨_, _, [.fetch response], (apply_ite (fun r => (r, _)) _ _ _).symm, ⟨rfl, rfl⟩, rfl,
        rfl, Nat.le_refl 1, ?_, ?_⟩
      · split <;> exact ⟨rfl, rfl⟩
      · intro carries
        exact ⟨⟨missing, trivial⟩, carries_after p.syncState response request carries⟩

structure Performed (p : Stage Net Data) (request : Request Data) (left : Nat)
    (reply : Reply Data) (q : Stage Net Data) (new : List (Sent Data)) : Prop where
  worked : Worked p q new
  tried : ∃ earlier last, tries new = earlier ++ [(last, reply)] ∧ earlier.length ≤ left ∧
    (∀ a ∈ earlier, a.2.ends = false) ∧ (reply.ends = false → earlier.length = left) ∧
    q.slept + 2 ^ max 2 (maxAttempts - left) =
      p.slept + 2 ^ (maxAttempts - left + earlier.length + 1)
  repeated : ∀ a ∈ tries new, a.1.url = request.url ∧ a.1.body = request.body
  fetched : (fetches new).length ≤ (tries new).countP (·.2.refused)
  carried : Carries p.syncState request → Carried p.syncState new

theorem pause_eq (number : Nat) (positive : 1 ≤ number) :
    (if 2 ≤ number then 2 ^ number else 0) + 2 ^ max 2 number = 2 ^ (number + 1) := by
  by_cases later : 2 ≤ number
  · rw [if_pos later, Nat.max_eq_right later, Nat.pow_succ]
    omega
  · have first : number = 1 := by omega
    subst first
    rfl

theorem performed_last {p p' q : Stage Net Data} {request : Request Data} {left : Nat}
    {reply : Reply Data} {new : List (Sent Data)} (few : left < maxAttempts)
    (first : Worked p p' [.attempt request reply])
    (slept : p'.slept = p.slept + if 2 ≤ maxAttempts - left then 2 ^ (maxAttempts - left) else 0)
    (last : reply.ends = false → left = 0) (rest : Worked p' q new) (noPause : q.slept = p'.slept)
    (noTries : tries new = []) (fetched : (fetches new).length ≤ if reply.refused then 1 else 0)
    (carried : Carries p'.syncState request → Carried p'.syncState new) :
    Performed p request left reply q ([.attempt request reply] ++ new) := by
  have same : p'.syncState = p.syncState := first.state
  refine ⟨first.trans rest, ⟨[], request, ?_, Nat.zero_le _, ?_, ?_, ?_⟩, ?_, ?_, ?_⟩
  · rw [tries_append, noTries]
    rfl
  · simp
  · exact fun more => (last more).symm
  · have pause := pause_eq (maxAttempts - left) (by omega)
    rw [noPause, slept, Nat.add_assoc, pause]
    rfl
  · rw [tries_append, noTries]
    exact List.forall_mem_cons.mpr ⟨⟨rfl, rfl⟩, fun _ none => nomatch none⟩
  · rw [tries_append, fetches_append, noTries]
    simpa [tries, fetches] using fetched
  · intro carries
    exact ⟨carries, same ▸ carried (same.symm ▸ carries)⟩

theorem performFrom_spec (session : URLSession Net Data) (timeout left : Nat)
    (few : left < maxAttempts) (p : Stage Net Data) (request : Request Data) :
    ∃ reply q new, performFrom session timeout p request left = (reply, q) ∧
      Performed p request left reply q new := by
  induction left generalizing p request with
  | zero =>
    obtain ⟨reply, p', tried, first, slept⟩ :=
      performAttempt_spec session timeout p request maxAttempts
    simp only [performFrom, tried]
    cases stops : reply.ends with
    | true =>
      exact ⟨reply, p', _, rfl, performed_last few first slept (fun _ => rfl)
        ⟨(List.append_nil _).symm, rfl⟩ rfl rfl (Nat.zero_le _) fun _ => trivial⟩
    | false =>
      obtain ⟨request', q, new, renewed, rest, noPause, noTries, fetched, _, carried⟩ :=
        renewToken_spec session p' request reply
      simp only [renewed, Bool.false_eq_true, if_false]
      exact ⟨reply, q, _, rfl, performed_last few first slept (fun _ => rfl) rest noPause noTries
        fetched fun carries => (carried carries).1⟩
  | succ left ih =>
    obtain ⟨reply, p', tried, first, slept⟩ :=
      performAttempt_spec session timeout p request (maxAttempts - (left + 1))
    simp only [performFrom, tried]
    cases stops : reply.ends with
    | true =>
      refine ⟨reply, p', _, rfl, performed_last few first slept ?_
        ⟨(List.append_nil _).symm, rfl⟩ rfl rfl (Nat.zero_le _) fun _ => trivial⟩
      simp [stops]
    | false =>
      obtain ⟨request', p'', renew, renewed, second, noPause, noTries, fetched, unchanged,
        carried⟩ :=
        renewToken_spec session p' request reply
      simp only [renewed, Bool.false_eq_true, if_false]
      obtain ⟨final, q, new, performed,
        ⟨worked, ⟨earlier, last, tried', few', failed, full, pauses⟩,
        repeated', fetched', carried'⟩⟩ := ih (Nat.lt_of_succ_lt few) p'' request'
      have same : p'.syncState = p.syncState := first.state
      refine ⟨final, q, [.attempt request reply] ++ renew ++ new, performed,
        (first.trans second).trans worked,
        ⟨(request, reply) :: earlier, last, ?_, ?_, ?_, ?_, ?_⟩, ?_, ?_, ?_⟩
      · rw [tries_append, tries_append, noTries, tried']
        rfl
      · simpa using few'
      · exact List.forall_mem_cons.mpr ⟨stops, failed⟩
      · intro more
        rw [List.length_cons, full more]
      · have pause := pause_eq (maxAttempts - (left + 1)) (by omega)
        have next : maxAttempts - left = maxAttempts - (left + 1) + 1 := by omega
        have later : max 2 (maxAttempts - (left + 1) + 1) = maxAttempts - (left + 1) + 1 := by omega
        rw [next, later, noPause, slept] at pauses
        have longer : maxAttempts - (left + 1) + ((request, reply) :: earlier).length + 1 =
            maxAttempts - (left + 1) + 1 + earlier.length + 1 := by
          rw [List.length_cons]
          omega
        rw [longer]
        omega
      · rw [tries_append, tries_append, noTries]
        refine List.forall_mem_cons.mpr ⟨⟨rfl, rfl⟩, ?_⟩
        exact fun a member =>
          ⟨(repeated' a member).1.trans unchanged.1, (repeated' a member).2.trans unchanged.2⟩
      · rw [tries_append, tries_append, fetches_append, fetches_append, noTries]
        simp only [tries, fetches, List.nil_append, List.append_nil, List.length_append,
          List.countP_cons, List.countP_append, List.countP_nil]
        omega
      · intro carries
        have here := carried (same.symm ▸ carries)
        rw [carried_append, carried_append]
        refine ⟨⟨⟨carries, trivial⟩, ?_⟩, ?_⟩
        · simpa [replay, same] using here.1
        · rw [← (first.trans second).state]
          exact carried' here.2

/-- The outcome of a request: at most five attempts at it, all but the last failed for another
    reason than a missing network, a token fetch for a refused attempt at most, a pause of twice
    the length before every further attempt, and the answer of the last one. -/
theorem request_tried (session : URLSession Net Data) (timeout : Nat) (p : Stage Net Data)
    (request : Request Data) :
    ∃ new earlier last reply,
      (dataFromRequest session timeout p request).2.sent = p.sent ++ new ∧
      tries new = earlier ++ [(last, reply)] ∧ earlier.length < maxAttempts ∧
      (∀ a ∈ earlier, a.2.ends = false) ∧
      (∀ a ∈ tries new, a.1.url = request.url ∧ a.1.body = request.body) ∧
      (fetches new).length ≤ (tries new).countP (·.2.refused) ∧
      (dataFromRequest session timeout p request).2.slept + 4 =
        p.slept + 2 ^ (earlier.length + 2) ∧
      (∀ data, (dataFromRequest session timeout p request).1 = .ok data ↔
        reply.statusCode = 200 ∧ reply.data = data) ∧
      (∀ code, (dataFromRequest session timeout p request).1 = .error code →
        earlier.length + 1 = maxAttempts ∨ reply.errorCode = NSURLErrorNotConnectedToInternet) := by
  obtain ⟨reply, q, new, performed, spec⟩ :=
    performFrom_spec session timeout (maxAttempts - 1) (by decide) p request
  obtain ⟨earlier, last, tried, few, failed, full, pauses⟩ := spec.tried
  have after : (dataFromRequest session timeout p request).2 = q := by
    simp only [dataFromRequest, performed]
    split <;> rfl
  have result : (dataFromRequest session timeout p request).1 =
      if reply.statusCode = 200 then .ok reply.data
      else .error (reply.error.getD reply.statusCode) := by
    simp only [dataFromRequest, performed]
    split <;> rfl
  refine ⟨new, earlier, last, reply, ?_, tried, Nat.lt_succ_of_le few, failed, spec.repeated,
    spec.fetched, ?_, ?_, ?_⟩
  · rw [after, spec.worked.sent]
  · have turns : maxAttempts - (maxAttempts - 1) + earlier.length + 1 = earlier.length + 2 := by
      change 1 + earlier.length + 1 = earlier.length + 2
      omega
    rw [turns] at pauses
    rw [after]
    exact pauses
  · intro data
    rw [result]
    by_cases ok : reply.statusCode = 200 <;> simp [ok]
  · intro code failure
    rw [result] at failure
    have bad : reply.statusCode ≠ 200 := fun ok => by simp [ok] at failure
    by_cases offline : reply.errorCode = NSURLErrorNotConnectedToInternet
    · exact .inr offline
    · refine .inl ?_
      rw [full (by simp [Reply.ends, bad, offline])]
      rfl

/-! ### The requests of a session -/

/-- Neither a configured header nor the compression takes the place of the token's header. -/
def Unshadowed (s : SyncState) (c : Call Data) : Prop :=
  (∀ field ∈ c.extra, field.1 ∈ protectedHeaders ∨
    s.xsrfHeader.toLower ≠ field.1.toLower) ∧
  (s.contentEncoding = .none ∨ s.xsrfHeader.toLower ≠ "Content-Encoding".toLower)

theorem setValue_other {h : Headers} {value : Option String} {field other : String}
    (differ : other.toLower ≠ field.toLower) : h.setValue value field other = h other :=
  if_neg differ

theorem addExtra_other {extra : List (String × String)} {h : Headers} {name : String}
    (differ : ∀ field ∈ extra, field.1 ∈ protectedHeaders ∨ name.toLower ≠ field.1.toLower) :
    addExtraRequestHeaders extra h name = h name := by
  unfold addExtraRequestHeaders
  induction extra generalizing h with
  | nil => rfl
  | cons field extra ih =>
    rw [List.foldl_cons, ih fun f member => differ f (List.mem_cons_of_mem _ member)]
    split
    · rfl
    · rename_i added
      exact setValue_other ((differ field List.mem_cons_self).resolve_left added)

theorem carries_request {s : SyncState} {c : Call Data} (unshadowed : Unshadowed s c) :
    Carries s (c.request s) := by
  simp only [Carries, Call.request, requestWithData]
  rw [addExtra_other unshadowed.1]
  rcases unshadowed.2 with plain | differ
  · simp [plain, setValue_self]
  · cases (if s.contentEncoding = .none then none
      else c.compress s.contentEncoding c.requestBody) with
    | none => exact setValue_self _ _ _
    | some body => exact (setValue_other differ).trans (setValue_self _ _ _)

def bringsToken (response : Option Response) : Bool :=
  match response.filter (·.statusCode = 200) with
  | some r => !((r.allHeaderFields kDefaultXSRFTokenHeader).getD "").isEmpty
  | none => false

theorem hasToken_after {s : SyncState} (missing : s.hasToken = false)
    (response : Option Response) : (s.after response).hasToken = bringsToken response := by
  unfold SyncState.after bringsToken
  cases response.filter (·.statusCode = 200) with
  | none => exact missing
  | some r => rfl

theorem carried_tokens {s : SyncState} {xs : List (Sent Data)} (carried : Carried s xs) :
    (fetches xs).countP bringsToken ≤ if s.hasToken then 0 else 1 := by
  induction xs generalizing s with
  | nil => exact Nat.zero_le _
  | cons x xs ih =>
    cases x with
    | attempt request reply => exact ih carried.2
    | fetch response =>
      have rest := ih carried.2
      rw [hasToken_after carried.1] at rest
      rw [carried.1]
      simp only [fetches, List.countP_cons, Bool.false_eq_true, if_false]
      cases brings : bringsToken response <;> simp [brings] at rest ⊢ <;> omega

/-- The session so far: its state is what the token endpoint gave it, every attempt carried the
    token of its time, nothing was fetched once there was a token, and so at most one was. -/
structure TokenKept (s : SyncState) (p : Stage Net Data) : Prop where
  state : p.syncState = replay s p.sent
  carried : Carried s p.sent
  single : (fetches p.sent).countP bringsToken ≤ 1

theorem tokenKept_step (session : URLSession Net Data) {s : SyncState} (p : Stage Net Data)
    (c : Call Data) (q : Stage Net Data) (kept : TokenKept s p)
    (unshadowed : Unshadowed p.syncState c) (h : step session p c = some q) : TokenKept s q := by
  obtain ⟨reply, q', new, performed, spec⟩ := performFrom_spec session c.timeout
    (maxAttempts - 1) (by decide) p (c.request p.syncState)
  have after : q = q' := by
    simp only [step, Option.some.injEq] at h
    rw [← h]
    simp only [dataFromRequest, performed]
    split <;> rfl
  subst after
  have carried : Carried s q.sent := by
    rw [spec.worked.sent, carried_append, ← kept.state]
    exact ⟨kept.carried, spec.carried (carries_request unshadowed)⟩
  refine ⟨?_, carried, ?_⟩
  · rw [spec.worked.state, spec.worked.sent, replay_append, kept.state]
  · have few := carried_tokens carried
    split at few <;> omega

theorem session_keeps_token (session : URLSession Net Data) (net : Net) (s : SyncState)
    (cs : List (Call Data))
    (unshadowed : Runs.Meets (step session) (fun p c => Unshadowed p.syncState c)
      (Stage.new net s) cs) :
    Runs.Always (step session) (TokenKept s) (Stage.new net s) cs :=
  Runs.always_of_meets (fun p c q kept met h => tokenKept_step session p c q kept met h)
    ⟨rfl, trivial, Nat.zero_le _⟩ unshadowed

def refusesOnce : URLSession Nat Nat where
  perform n _ _ :=
    (match n with
    | 0 => ⟨none, some ⟨403, fun _ => none⟩, none⟩
    | 1 => ⟨none, some ⟨200, fun name => if name = kDefaultXSRFTokenHeader then some "t" else none⟩,
        none⟩
    | _ => ⟨some 7, some ⟨200, fun _ => none⟩, none⟩, n + 1)
  nanosleep n _ := n

def twoCalls : List (Call Nat) :=
  [⟨"preflight/m", [], fun _ _ => none, 1, "application/json", 30⟩,
    ⟨"ruledownload/m", [], fun _ _ => none, 2, "application/json", 30⟩]

theorem refused_once_keeps_token :
    Runs.Always (step refusesOnce) (TokenKept ⟨"m", none, none, .none⟩)
      (Stage.new 0 ⟨"m", none, none, .none⟩) twoCalls := by
  refine session_keeps_token refusesOnce 0 ⟨"m", none, none, .none⟩ twoCalls ?_
  intro p first
  refine ⟨⟨by simp, .inl rfl⟩, ?_⟩
  intro q second
  simp only [step, Option.some.injEq] at first
  subst first
  exact ⟨⟨by simp, .inl rfl⟩, trivial⟩

end
end SantaSyncStage
