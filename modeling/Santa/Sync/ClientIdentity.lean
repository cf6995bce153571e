import Santa.Library.Walks

/-!
The answers to a server's challenges. The identity for a client certificate may be found by
going from an issuer's name to the newest certificate that it issued, and on from there where
this is an intermediate one. Nothing keeps such a search from going round in a circle. The
keychain, the decoding of names, the evaluation of trust and the sort by date of the
certificates found are parameters; of the sort only that it keeps them is used.
-/
namespace SantaClientIdentity
open Walks

structure Certificate where
  certRef : Nat
  commonName : Option String
  countryName : Option String
  orgName : Option String
  orgUnit : Option String
  issuerCommonName : Option String
  issuerCountryName : Option String
  issuerOrgName : Option String
  issuerOrgUnit : Option String
  deriving DecidableEq, Repr

abbrev Identity := Nat

/-- The certificates, the identity that one of them has, and the sort of those that a filter
    leaves, by date in the program and any here. -/
structure Keychain where
  allCerts : List Certificate
  identityWithCertificate : Certificate → Option Identity
  newestFirst : List Certificate → List Certificate
  arranged : ∀ certs, (newestFirst certs).Perm certs

/-- The names asked for; what is `none` is not compared. -/
structure Filter where
  commonName : Option String
  issuerCommonName : Option String
  issuerCountryName : Option String
  issuerOrgName : Option String
  issuerOrgUnit : Option String
  deriving DecidableEq, Repr

def agrees (wanted value : Option String) : Bool := wanted.all fun name => value == some name

def Filter.matches (filter : Filter) (cert : Certificate) : Bool :=
  agrees filter.commonName cert.commonName &&
    agrees filter.issuerCommonName cert.issuerCommonName &&
    agrees filter.issuerCountryName cert.issuerCountryName &&
    agrees filter.issuerOrgName cert.issuerOrgName &&
    agrees filter.issuerOrgUnit cert.issuerOrgUnit

def filterAndSortArray (keychain : Keychain) (filter : Filter) : List Certificate :=
  keychain.newestFirst (keychain.allCerts.filter filter.matches)

def issuedBy (cert : Certificate) : Filter :=
  ⟨none, cert.commonName, cert.countryName, cert.orgName, cert.orgUnit⟩

def selfSigned (cert : Certificate) : Bool :=
  agrees cert.commonName cert.issuerCommonName && agrees cert.countryName cert.issuerCountryName &&
    agrees cert.orgName cert.issuerOrgName && agrees cert.orgUnit cert.issuerOrgUnit

def scan (keychain : Keychain) : List Certificate → Filter ⊕ Option Identity
  | [] => .inr none
  | cert :: rest =>
      match keychain.identityWithCertificate cert with
      | some identity => .inr (some identity)
      | none => if selfSigned cert then scan keychain rest else .inl (issuedBy cert)

/-- `none` is the answer only where the calls nest deeper than `depth`. -/
def identityByFilteringArray (keychain : Keychain) : Nat → Filter → Option (Option Identity)
  | 0, _ => none
  | depth + 1, filter =>
      match scan keychain (filterAndSortArray keychain filter) with
      | .inl issued => identityByFilteringArray keychain depth issued
      | .inr identity => some identity

structure DistinguishedName where
  commonName : Option String
  countryName : Option String
  organizationName : Option String
  organizationalUnit : Option String
  deriving DecidableEq, Repr

def DistinguishedName.filter (name : DistinguishedName) : Filter :=
  ⟨none, name.commonName, name.countryName, name.organizationName, name.organizationalUnit⟩

def identityByFilters (keychain : Keychain) (depth : Nat) : List Filter → Option (Option Identity)
  | [] => some none
  | filter :: rest =>
      (identityByFilteringArray keychain depth filter).bind fun
        | some identity => some (some identity)
        | none => identityByFilters keychain depth rest

structure Session where
  serverHostname : Option String
  clientCertFile : Option String
  clientCertCommonName : Option String
  clientCertIssuerCn : Option String
  anchors : Option (List Nat)

/-- What the server asks with. A name that cannot be decoded is `none`. -/
structure ProtectionSpace where
  host : String
  protocol : Option String
  receivesCredentialSecurely : Bool
  authenticationMethod : String
  distinguishedNames : List (Option DistinguishedName)
  serverTrust : Option Nat

structure Security where
  identityFromFile : String → Option Identity
  setAnchorCertificates : Nat → List Nat → Bool
  evaluate : Nat → Option (List Nat) → Bool

inductive Answer where
  | useIdentity (identity : Identity)
  | useTrust (serverTrust : Nat)
  | cancelAuthenticationChallenge
  | performDefaultHandling
  deriving DecidableEq, Repr

def filters (session : Session) (names : List (Option DistinguishedName)) : List Filter :=
  match session.clientCertCommonName with
  | some commonName => [⟨some commonName, none, none, none, none⟩]
  | none =>
      match session.clientCertIssuerCn with
      | some issuer => [⟨none, some issuer, none, none, none⟩]
      | none => names.filterMap fun decoder => decoder.map DistinguishedName.filter

def clientCredential (session : Session) (security : Security) (keychain : Keychain) (depth : Nat)
    (names : List (Option DistinguishedName)) : Option (Option Identity) :=
  match session.clientCertFile with
  | some file => some (security.identityFromFile file)
  | none => identityByFilters keychain depth (filters session names)

def serverCredential (session : Session) (security : Security) (space : ProtectionSpace) :
    Option Nat :=
  space.serverTrust.filter fun trust =>
    (session.anchors.all fun anchors => security.setAnchorCertificates trust anchors) &&
      security.evaluate trust session.anchors

def NSURLAuthenticationMethodClientCertificate : String :=
  "NSURLAuthenticationMethodClientCertificate"
def NSURLAuthenticationMethodServerTrust : String := "NSURLAuthenticationMethodServerTrust"
def NSURLProtectionSpaceHTTPS : String := "https"

def didReceiveChallenge (session : Session) (security : Security) (keychain : Keychain)
    (depth previousFailureCount : Nat) (space : ProtectionSpace) : Option Answer :=
  if previousFailureCount > 0 then some .cancelAuthenticationChallenge
  else if session.serverHostname.any fun host => host ≠ space.host then
    some .cancelAuthenticationChallenge
  else if space.protocol ≠ some NSURLProtectionSpaceHTTPS then
    some .cancelAuthenticationChallenge
  else if !space.receivesCredentialSecurely then some .cancelAuthenticationChallenge
  else if space.authenticationMethod = NSURLAuthenticationMethodClientCertificate then
    (clientCredential session security keychain depth space.distinguishedNames).map fun
      | some identity => .useIdentity identity
      | none => .performDefaultHandling
  else if space.authenticationMethod = NSURLAuthenticationMethodServerTrust then
    match serverCredential session security space with
    | some trust => some (.useTrust trust)
    | none => some .cancelAuthenticationChallenge
  else some .performDefaultHandling

/-! ### One search -/

def search (keychain : Keychain) (filter : Filter) : Filter ⊕ Option Identity :=
  scan keychain (filterAndSortArray keychain filter)

theorem identityByFilteringArray_eq (keychain : Keychain) (depth : Nat) (filter : Filter) :
    identityByFilteringArray keychain depth filter = walk (search keychain) depth filter := by
  induction depth generalizing filter with
  | zero => rfl
  | succ depth ih =>
    rw [identityByFilteringArray, walk, search]
    cases scan keychain (filterAndSortArray keychain filter) with
    | inl issued => exact ih issued
    | inr identity => rfl

theorem mem_filterAndSortArray {keychain : Keychain} {filter : Filter} {cert : Certificate} :
    cert ∈ filterAndSortArray keychain filter ↔
      cert ∈ keychain.allCerts ∧ filter.matches cert = true :=
  (keychain.arranged _).mem_iff.trans List.mem_filter

theorem scan_issued {keychain : Keychain} {certs : List Certificate} {issued : Filter}
    (descends : scan keychain certs = .inl issued) : ∃ cert ∈ certs,
      keychain.identityWithCertificate cert = none ∧ issued = issuedBy cert := by
  induction certs with
  | nil => cases descends
  | cons cert rest ih =>
    rw [scan] at descends
    cases has : keychain.identityWithCertificate cert with
    | some identity =>
      rw [has] at descends
      cases descends
    | none =>
      rw [has] at descends
      dsimp only at descends
      split at descends
      · obtain ⟨later, member, without, same⟩ := ih descends
        exact ⟨later, List.mem_cons_of_mem cert member, without, same⟩
      · exact ⟨cert, List.mem_cons_self, has, (Sum.inl.inj descends).symm⟩

theorem scan_identity {keychain : Keychain} {certs : List Certificate} {identity : Identity}
    (found : scan keychain certs = .inr (some identity)) : ∃ cert ∈ certs,
      keychain.identityWithCertificate cert = some identity := by
  induction certs with
  | nil => cases found
  | cons cert rest ih =>
    rw [scan] at found
    cases has : keychain.identityWithCertificate cert with
    | some first =>
      rw [has] at found
      cases found
      exact ⟨cert, List.mem_cons_self, has⟩
    | none =>
      rw [has] at found
      dsimp only at found
      split at found
      · obtain ⟨later, member, has⟩ := ih found
        exact ⟨later, List.mem_cons_of_mem cert member, has⟩
      · cases found

theorem search_inside (keychain : Keychain) (filter issued : Filter)
    (leads : Leads (search keychain) filter issued) :
    issued ∈ keychain.allCerts.map issuedBy := by
  obtain ⟨cert, member, _, rfl⟩ := scan_issued leads
  exact List.mem_map_of_mem (mem_filterAndSortArray.mp member).1

/-- Certificates of the keychain lead from the filter to that of the identity: the first is one
    asked for, and each names the one before it as its issuer. -/
inductive Chain (keychain : Keychain) : Filter → Identity → Prop where
  | leaf {filter : Filter} {cert : Certificate} {identity : Identity} :
      cert ∈ keychain.allCerts → filter.matches cert = true →
      keychain.identityWithCertificate cert = some identity → Chain keychain filter identity
  | intermediate {filter : Filter} {cert : Certificate} {identity : Identity} :
      cert ∈ keychain.allCerts → filter.matches cert = true →
      keychain.identityWithCertificate cert = none → Chain keychain (issuedBy cert) identity →
      Chain keychain filter identity

theorem search_chain {keychain : Keychain} {filter last : Filter} {identity : Identity}
    (path : Relation.ReflTransGen (Leads (search keychain)) filter last)
    (found : search keychain last = .inr (some identity)) : Chain keychain filter identity := by
  induction path using Relation.ReflTransGen.head_induction_on with
  | refl =>
    obtain ⟨cert, member, has⟩ := scan_identity found
    obtain ⟨there, asked⟩ := mem_filterAndSortArray.mp member
    exact .leaf there asked has
  | head leads _ ih =>
    obtain ⟨cert, member, without, rfl⟩ := scan_issued leads
    obtain ⟨there, asked⟩ := mem_filterAndSortArray.mp member
    exact .intermediate there asked without ih

def Circular (keychain : Keychain) (filter : Filter) : Prop := Circles (search keychain) filter

def deepest (keychain : Keychain) : Nat := keychain.allCerts.length + 1

section one
variable {keychain : Keychain} {filter : Filter}

theorem search_settled {depth : Nat} {found : Option Identity}
    (ends : identityByFilteringArray keychain depth filter = some found) :
    identityByFilteringArray keychain (deepest keychain) filter = some found := by
  rw [identityByFilteringArray_eq] at ends ⊢
  simpa [deepest] using walk_settled (search_inside keychain) ends

theorem search_ends (straight : ¬ Circular keychain filter) :
    ∃ found, identityByFilteringArray keychain (deepest keychain) filter = some found := by
  obtain ⟨depth, ends⟩ := (walk_ends_iff (search_inside keychain) filter).mpr straight
  obtain ⟨found, ends⟩ := Option.isSome_iff_exists.mp ends
  exact ⟨found, search_settled ((identityByFilteringArray_eq keychain depth filter).trans ends)⟩

theorem search_straight {depth : Nat} {found : Option Identity}
    (ends : identityByFilteringArray keychain depth filter = some found) :
    ¬ Circular keychain filter :=
  not_circles ((identityByFilteringArray_eq keychain depth filter).symm.trans ends)

theorem search_found {depth : Nat} {identity : Identity}
    (found : identityByFilteringArray keychain depth filter = some (some identity)) :
    Chain keychain filter identity := by
  rw [identityByFilteringArray_eq] at found
  obtain ⟨last, path, done⟩ := walk_end found
  exact search_chain path done

end one

def crossSigned : Keychain where
  allCerts := [⟨0, some "A", none, none, none, some "B", none, none, none⟩,
    ⟨1, some "B", none, none, none, some "A", none, none, none⟩]
  identityWithCertificate _ := none
  newestFirst certs := certs
  arranged _ := .refl _

example : Circular crossSigned ⟨none, some "A", none, none, none⟩ :=
  ⟨_, .refl, .tail (.single (by rfl : Leads _ _ ⟨none, some "B", none, none, none⟩)) (by rfl)⟩

/-! ### The filters, one after the other -/

def FindsNone (keychain : Keychain) (filter : Filter) : Prop :=
  identityByFilteringArray keychain (deepest keychain) filter = some none

def GoesRound (keychain : Keychain) (filters : List Filter) : Prop :=
  ∃ before filter after, filters = before ++ filter :: after ∧
    (∀ earlier ∈ before, FindsNone keychain earlier) ∧ Circular keychain filter

theorem goesRound_cons {keychain : Keychain} {filter : Filter} {rest : List Filter} :
    GoesRound keychain (filter :: rest) ↔ Circular keychain filter ∨
      FindsNone keychain filter ∧ GoesRound keychain rest := by
  constructor
  · rintro ⟨before, circular, after, same, none, round⟩
    cases before with
    | nil =>
      cases same
      exact .inl round
    | cons first before =>
      cases same
      exact .inr ⟨none filter List.mem_cons_self, before, circular, after, rfl,
        fun earlier member => none earlier (List.mem_cons_of_mem filter member), round⟩
  · rintro (round | ⟨none, before, circular, after, rfl, others, round⟩)
    · exact ⟨[], filter, rest, rfl, fun _ nothing => absurd nothing List.not_mem_nil, round⟩
    · exact ⟨filter :: before, circular, after, rfl, List.forall_mem_cons.mpr ⟨none, others⟩, round⟩

theorem filters_settled {keychain : Keychain} {depth : Nat} {filters : List Filter}
    {found : Option Identity} (ends : identityByFilters keychain depth filters = some found) :
    identityByFilters keychain (deepest keychain) filters = some found := by
  induction filters with
  | nil => exact ends
  | cons filter rest ih =>
    rw [identityByFilters] at ends ⊢
    obtain ⟨first, searched, more⟩ := Option.bind_eq_some_iff.mp ends
    rw [search_settled searched, Option.bind_some]
    cases first with
    | some identity => exact more
    | none => exact ih more

theorem filters_end_iff {keychain : Keychain} (filters : List Filter) :
    (∃ depth, (identityByFilters keychain depth filters).isSome) ↔
      ¬ GoesRound keychain filters := by
  induction filters with
  | nil =>
    refine ⟨fun _ ⟨before, filter, after, same, _⟩ => ?_, fun _ => ⟨0, rfl⟩⟩
    exact List.cons_ne_nil _ _ (List.append_eq_nil_iff.mp same.symm).2
  | cons filter rest ih =>
    rw [goesRound_cons]
    constructor
    · rintro ⟨depth, ends⟩
      obtain ⟨found, ends⟩ := Option.isSome_iff_exists.mp ends
      obtain ⟨first, searched, more⟩ := Option.bind_eq_some_iff.mp ends
      rintro (round | ⟨none, round⟩)
      · exact search_straight searched round
      · cases (search_settled searched).symm.trans none
        exact ih.mp ⟨depth, Option.isSome_iff_exists.mpr ⟨found, more⟩⟩ round
    · intro straight
      obtain ⟨first, searched⟩ := search_ends fun round => straight (.inl round)
      refine ⟨deepest keychain, ?_⟩
      rw [identityByFilters, searched, Option.bind_some]
      cases first with
      | some identity => rfl
      | none =>
        obtain ⟨depth, ends⟩ := ih.mpr fun round => straight (.inr ⟨searched, round⟩)
        obtain ⟨found, ends⟩ := Option.isSome_iff_exists.mp ends
        exact Option.isSome_iff_exists.mpr ⟨found, filters_settled ends⟩

theorem filters_found {keychain : Keychain} {depth : Nat} {filters : List Filter}
    {identity : Identity}
    (found : identityByFilters keychain depth filters = some (some identity)) :
    ∃ filter ∈ filters, Chain keychain filter identity := by
  induction filters with
  | nil => cases found
  | cons filter rest ih =>
    obtain ⟨first, searched, more⟩ := Option.bind_eq_some_iff.mp found
    cases first with
    | some first =>
      cases more
      exact ⟨filter, List.mem_cons_self, search_found searched⟩
    | none =>
      obtain ⟨later, member, chain⟩ := ih more
      exact ⟨later, List.mem_cons_of_mem filter member, chain⟩

/-! ### Challenges -/

/-- A first challenge of the server that was asked for, over a secure protocol. -/
structure Secure (session : Session) (previousFailureCount : Nat) (space : ProtectionSpace) :
    Prop where
  first : previousFailureCount = 0
  host : ∀ host ∈ session.serverHostname, host = space.host
  protocol : space.protocol = some NSURLProtectionSpaceHTTPS
  securely : space.receivesCredentialSecurely = true

structure Searches (session : Session) (previousFailureCount : Nat) (space : ProtectionSpace) :
    Prop where
  secure : Secure session previousFailureCount space
  method : space.authenticationMethod = NSURLAuthenticationMethodClientCertificate
  noFile : session.clientCertFile = none

/-- The identity is that of the file, where there is one, or the end of a chain. -/
def Vouched (session : Session) (security : Security) (keychain : Keychain)
    (space : ProtectionSpace) (identity : Identity) : Prop :=
  match session.clientCertFile with
  | some file => security.identityFromFile file = some identity
  | none => ∃ filter ∈ filters session space.distinguishedNames, Chain keychain filter identity

def secureAnswer (session : Session) (security : Security) (keychain : Keychain) (depth : Nat)
    (space : ProtectionSpace) : Option Answer :=
  if space.authenticationMethod = NSURLAuthenticationMethodClientCertificate then
    (clientCredential session security keychain depth space.distinguishedNames).map fun
      | some identity => .useIdentity identity
      | none => .performDefaultHandling
  else if space.authenticationMethod = NSURLAuthenticationMethodServerTrust then
    match serverCredential session security space with
    | some trust => some (.useTrust trust)
    | none => some .cancelAuthenticationChallenge
  else some .performDefaultHandling

section challenges
variable {session : Session} {security : Security} {keychain : Keychain}
  {previousFailureCount : Nat} {space : ProtectionSpace}

theorem answer_secure (secure : Secure session previousFailureCount space) (depth : Nat) :
    didReceiveChallenge session security keychain depth previousFailureCount space =
      secureAnswer session security keychain depth space := by
  have named : session.serverHostname.any (fun host => host ≠ space.host) = false := by
    cases asked : session.serverHostname with
    | none => rfl
    | some host => simp [secure.host host asked]
  rw [didReceiveChallenge, if_neg (by rw [secure.first]; decide),
    if_neg (by rw [named]; exact Bool.false_ne_true), if_neg (not_not_intro secure.protocol),
    if_neg (by rw [secure.securely]; decide)]
  rfl

theorem answer_insecure (insecure : ¬ Secure session previousFailureCount space) (depth : Nat) :
    didReceiveChallenge session security keychain depth previousFailureCount space =
      some .cancelAuthenticationChallenge := by
  unfold didReceiveChallenge
  split
  · rfl
  · rename_i first
    split
    · rfl
    · rename_i host
      split
      · rfl
      · rename_i protocol
        split
        · rfl
        · rename_i securely
          refine absurd ⟨Nat.eq_zero_of_not_pos first, fun asked is => ?_,
            Decidable.of_not_not protocol, by simpa using securely⟩ insecure
          rw [Option.mem_def.mp is] at host
          simpa using host

theorem clientCredential_vouched {depth : Nat} {identity : Identity}
    (found : clientCredential session security keychain depth space.distinguishedNames =
      some (some identity)) : Vouched session security keychain space identity := by
  unfold clientCredential at found
  unfold Vouched
  cases file : session.clientCertFile with
  | some path =>
    rw [file] at found
    exact Option.some.inj found
  | none =>
    rw [file] at found
    exact filters_found found

theorem clientCredential_settled {depth : Nat} {found : Option Identity}
    (ends : clientCredential session security keychain depth space.distinguishedNames =
      some found) :
    clientCredential session security keychain (deepest keychain) space.distinguishedNames =
      some found := by
  unfold clientCredential at ends ⊢
  split at ends
  · exact ends
  · exact filters_settled ends

theorem clientCredential_ends_iff :
    (∃ depth, (clientCredential session security keychain depth
        space.distinguishedNames).isSome) ↔
      (session.clientCertFile = none →
        ¬ GoesRound keychain (filters session space.distinguishedNames)) := by
  unfold clientCredential
  cases session.clientCertFile with
  | some file => exact ⟨fun _ none => (by cases none), fun _ => ⟨0, rfl⟩⟩
  | none => exact (filters_end_iff _).trans (by simp)

theorem secureAnswer_client
    (method : space.authenticationMethod = NSURLAuthenticationMethodClientCertificate)
    (depth : Nat) : secureAnswer session security keychain depth space =
      (clientCredential session security keychain depth space.distinguishedNames).map fun
        | some identity => .useIdentity identity
        | none => .performDefaultHandling :=
  if_pos method

theorem secureAnswer_other
    (method : space.authenticationMethod ≠ NSURLAuthenticationMethodClientCertificate)
    (depth depth' : Nat) : secureAnswer session security keychain depth space =
      secureAnswer session security keychain depth' space := by
  rw [secureAnswer, secureAnswer, if_neg method, if_neg method]

theorem secureAnswer_some
    (method : space.authenticationMethod ≠ NSURLAuthenticationMethodClientCertificate)
    (depth : Nat) : (secureAnswer session security keychain depth space).isSome = true := by
  rw [secureAnswer, if_neg method]
  split
  · split
    · rfl
    · rfl
  · rfl

theorem secureAnswer_identity {depth : Nat} {identity : Identity}
    (answer : secureAnswer session security keychain depth space = some (.useIdentity identity)) :
    space.authenticationMethod = NSURLAuthenticationMethodClientCertificate ∧
      Vouched session security keychain space identity := by
  by_cases method : space.authenticationMethod = NSURLAuthenticationMethodClientCertificate
  · rw [secureAnswer_client method] at answer
    obtain ⟨found, ends, same⟩ := Option.map_eq_some_iff.mp answer
    cases found with
    | none => cases same
    | some identity =>
      cases same
      exact ⟨method, clientCredential_vouched ends⟩
  · rw [secureAnswer, if_neg method] at answer
    split at answer
    · split at answer
      · cases answer
      · cases answer
    · cases answer

theorem secureAnswer_trust {depth trust : Nat}
    (answer : secureAnswer session security keychain depth space = some (.useTrust trust)) :
    space.serverTrust = some trust ∧ security.evaluate trust session.anchors = true := by
  rw [secureAnswer] at answer
  split at answer
  · obtain ⟨found, _, same⟩ := Option.map_eq_some_iff.mp answer
    cases found with
    | none => cases same
    | some identity => cases same
  · split at answer
    · cases credential : serverCredential session security space with
      | none =>
        rw [credential] at answer
        cases answer
      | some evaluated =>
        rw [credential] at answer
        cases answer
        obtain ⟨there, passes⟩ := Option.filter_eq_some_iff.mp credential
        exact ⟨there, (Bool.and_eq_true_iff.mp passes).2⟩
    · cases answer

theorem answer_settled {depth : Nat} {answer : Answer}
    (ends : didReceiveChallenge session security keychain depth previousFailureCount space =
      some answer) :
    didReceiveChallenge session security keychain (deepest keychain) previousFailureCount space =
      some answer := by
  by_cases secure : Secure session previousFailureCount space
  · rw [answer_secure secure] at ends ⊢
    by_cases method : space.authenticationMethod = NSURLAuthenticationMethodClientCertificate
    · rw [secureAnswer_client method] at ends ⊢
      obtain ⟨found, ends, same⟩ := Option.map_eq_some_iff.mp ends
      rw [clientCredential_settled ends, ← same]
      rfl
    · rw [secureAnswer_other method (deepest keychain) depth]
      exact ends
  · rw [answer_insecure secure] at ends ⊢
    exact ends

theorem answer_ends_iff :
    (∃ depth, (didReceiveChallenge session security keychain depth previousFailureCount
        space).isSome) ↔
      (Searches session previousFailureCount space →
        ¬ GoesRound keychain (filters session space.distinguishedNames)) := by
  by_cases secure : Secure session previousFailureCount space
  · simp only [answer_secure secure]
    by_cases method : space.authenticationMethod = NSURLAuthenticationMethodClientCertificate
    · simp only [secureAnswer_client method, Option.isSome_map, clientCredential_ends_iff]
      exact ⟨fun straight searches => straight searches.noFile,
        fun straight noFile => straight ⟨secure, method, noFile⟩⟩
    · exact ⟨fun _ searches => absurd searches.method method,
        fun _ => ⟨0, secureAnswer_some method 0⟩⟩
  · simp only [answer_insecure secure]
    exact ⟨fun _ searches => absurd searches.secure secure, fun _ => ⟨0, rfl⟩⟩

end challenges

/-- A challenge is answered unless the search for an identity comes to certificates that name
    each other as issuers. An identity is sent to the secure server asked for only, from the file
    or from the end of a chain of issuers; trust only where it was evaluated. -/
theorem challenges_answered (session : Session) (security : Security) (keychain : Keychain)
    (previousFailureCount : Nat) (space : ProtectionSpace) :
    ((∃ depth, (didReceiveChallenge session security keychain depth previousFailureCount
        space).isSome) ↔
      (Searches session previousFailureCount space →
        ¬ GoesRound keychain (filters session space.distinguishedNames))) ∧
    ∀ depth answer,
      didReceiveChallenge session security keychain depth previousFailureCount space =
        some answer →
      didReceiveChallenge session security keychain (deepest keychain) previousFailureCount
        space = some answer ∧
      (∀ identity, answer = .useIdentity identity →
        Secure session previousFailureCount space ∧
          Vouched session security keychain space identity) ∧
      ∀ trust, answer = .useTrust trust → Secure session previousFailureCount space ∧
        space.serverTrust = some trust ∧ security.evaluate trust session.anchors = true := by
  refine ⟨answer_ends_iff, fun depth answer ends => ⟨answer_settled ends, ?_, ?_⟩⟩
  · rintro identity rfl
    by_cases secure : Secure session previousFailureCount space
    · rw [answer_secure secure] at ends
      exact ⟨secure, (secureAnswer_identity ends).2⟩
    · rw [answer_insecure secure] at ends
      cases ends
  · rintro trust rfl
    by_cases secure : Secure session previousFailureCount space
    · rw [answer_secure secure] at ends
      exact ⟨secure, secureAnswer_trust ends⟩
    · rw [answer_insecure secure] at ends
      cases ends

end SantaClientIdentity
