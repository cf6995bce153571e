import Mathlib.Logic.Function.Basic
import Santa.FileAccess.ProcessMatching
import Santa.Library.Runs

/-!
The certificate hashes of running executables. A hash is looked up by vnode, in a cache that
nothing is removed from; what fills it is the decision cached for the vnode, or else the
signature that the path leads to, and a hash that neither gives is remembered as one that nothing
matches. The files, the processes and the decisions change meanwhile.
-/
namespace SantaCertificateHashes
open Runs SantaPolicy SantaPathTargets SantaFAA SantaProcessMatching
open SantaAuthCache (SantaVnode)

structure Content where
  leafCertificate : Option String
  deriving DecidableEq, Repr

def Content.certificateHash (content : Content) : String :=
  (content.leafCertificate.filter (· ≠ "")).getD kBadCertHash

structure Process where
  esProc : EsProcess
  startedFrom : Content
  deriving DecidableEq, Repr

abbrev Process.file (process : Process) : EsFile := process.esProc.executable

structure State where
  vnodeAt : String → Option SantaVnode
  content : SantaVnode → Content
  processes : List Process
  decisionCache : SantaVnode → Option SNTCachedDecision
  certHashCache : CertHashCache

def boot (vnodeAt : String → Option SantaVnode) (content : SantaVnode → Content) : State where
  vnodeAt := vnodeAt
  content := content
  processes := []
  decisionCache := fun _ => none
  certHashCache := FAAPolicyProcessor.new.certHashCache

/-- A signature is read by path, and may be unreadable. -/
def State.leafCertificate (σ : State) (readable : Bool) (path : String) : Option String :=
  if readable then (σ.vnodeAt path).bind fun vnode => (σ.content vnode).leafCertificate else none

def State.sources (σ : State) (readable : Bool) : CertificateSources where
  cachedDecisionForFile := σ.decisionCache
  leafCertificate := σ.leafCertificate readable

def State.certificateHash (σ : State) (readable : Bool) (process : Process) : String :=
  (getCertificateHash (σ.sources readable) σ.certHashCache process.file).1

/-- What happens to files, processes and decisions, and the evaluations. A decision that is made
    without a look at the signature is one that could not read it. -/
inductive Label where
  | links (path : String) (vnode : SantaVnode)
  | unlinks (path : String)
  | rewrites (vnode : SantaVnode) (content : Content)
  | decides (file : EsFile) (cd : SNTCachedDecision) (readable : Bool)
  | forgets (vnode : SantaVnode)
  | starts (esProc : EsProcess)
  | exits (process : Process)
  | evaluates (process : Process) (policyProc : WatchItemProcess) (readable : Bool)
  deriving DecidableEq

def step (σ : State) : Label → Option State
  | .links path vnode =>
      some { σ with vnodeAt := Function.update σ.vnodeAt path (some vnode) }
  | .unlinks path => some { σ with vnodeAt := Function.update σ.vnodeAt path none }
  | .rewrites vnode content =>
      some { σ with content := Function.update σ.content vnode content }
  | .decides file cd readable =>
      let cd := { cd with certSHA256 := σ.leafCertificate readable file.path }
      some { σ with decisionCache := Function.update σ.decisionCache file.vnode (some cd) }
  | .forgets vnode =>
      some { σ with decisionCache := Function.update σ.decisionCache vnode none }
  | .starts esProc =>
      if σ.vnodeAt esProc.executable.path = some esProc.executable.vnode then
        some { σ with
          processes := ⟨esProc, σ.content esProc.executable.vnode⟩ :: σ.processes }
      else none
  | .exits process => some { σ with processes := σ.processes.erase process }
  | .evaluates process policyProc readable =>
      if process ∈ σ.processes then
        some { σ with
          certHashCache := (policyMatchesProcess (σ.sources readable) σ.certHashCache policyProc
            process.esProc).2 }
      else none

/-! ### Lookups -/

theorem policyMatchesProcess_cache (sources : CertificateSources) (certHashCache : CertHashCache)
    (policyProc : WatchItemProcess) (esProc : EsProcess) :
    (policyMatchesProcess sources certHashCache policyProc esProc).2 = certHashCache ∨
      (policyMatchesProcess sources certHashCache policyProc esProc).2 =
        (getCertificateHash sources certHashCache esProc.executable).2 := by
  unfold policyMatchesProcess
  split
  · split
    · exact .inl rfl
    split
    · exact .inl rfl
    split
    · exact .inl rfl
    split
    · exact .inl rfl
    split
    · exact .inl rfl
    · exact .inr rfl
  · split
    · exact .inl rfl
    · exact .inl rfl

theorem getCertificateHash_cache {sources : CertificateSources} {certHashCache : CertHashCache}
    {esFile : EsFile} {vnode : SantaVnode} {hash : String}
    (stored : (getCertificateHash sources certHashCache esFile).2.get vnode = some hash) :
    certHashCache.get vnode = some hash ∨
      vnode = esFile.vnode ∧ hash = (getCertificateHash sources certHashCache esFile).1 := by
  unfold getCertificateHash at stored ⊢
  cases found : certHashCache.get esFile.vnode with
  | some result =>
    rw [found] at stored
    exact .inl stored
  | none =>
    rw [found] at stored
    by_cases same : vnode = esFile.vnode
    · rw [same] at stored
      simp only [SantaCache.get_set_self, Option.all_none] at stored
      exact .inr ⟨same, (Option.some.inj stored).symm⟩
    · rcases SantaCache.get_set_other (c := certHashCache) _ none same with kept | ⟨_, emptied⟩
      · exact .inl (kept ▸ stored)
      · rw [emptied] at stored
        cases stored

theorem policyMatchesProcess_stored {sources : CertificateSources}
    {certHashCache : CertHashCache} {policyProc : WatchItemProcess} {esProc : EsProcess}
    {vnode : SantaVnode} {hash : String}
    (stored : (policyMatchesProcess sources certHashCache policyProc esProc).2.get vnode =
      some hash) :
    certHashCache.get vnode = some hash ∨ vnode = esProc.executable.vnode ∧
      hash = (getCertificateHash sources certHashCache esProc.executable).1 := by
  rcases policyMatchesProcess_cache sources certHashCache policyProc esProc with same | looked
  · exact .inl (same ▸ stored)
  · exact getCertificateHash_cache (looked ▸ stored)

/-! ### What is remembered -/

/-- What is remembered of a vnode is of the content that it has, and so is what runs from it; or,
    where a read may have been missed, it is missing. -/
structure Kept (missed : Prop) (σ : State) : Prop where
  cached : ∀ vnode hash, σ.certHashCache.get vnode = some hash →
    hash = (σ.content vnode).certificateHash ∨ missed ∧ hash = kBadCertHash
  decided : ∀ vnode cd, σ.decisionCache vnode = some cd →
    cd.certSHA256 = (σ.content vnode).leafCertificate ∨ missed ∧ cd.certSHA256 = none
  started : ∀ process ∈ σ.processes, process.startedFrom = σ.content process.file.vnode
  named : ∀ process ∈ σ.processes, σ.vnodeAt process.file.path = some process.file.vnode ∨
    missed ∧ σ.vnodeAt process.file.path = none

def State.Known (σ : State) (vnode : SantaVnode) : Prop :=
  (σ.certHashCache.get vnode).isSome = true ∨ (σ.decisionCache vnode).isSome = true ∨
    ∃ process ∈ σ.processes, process.file.vnode = vnode

/-- No vnode that something is remembered of gets other content, and the path of a process or of a
    decision leads to no other vnode. -/
def Settled (σ : State) : Label → Prop
  | .links path vnode =>
      ∀ process ∈ σ.processes, process.file.path = path → process.file.vnode = vnode
  | .rewrites vnode content => σ.Known vnode → content = σ.content vnode
  | .decides file _ readable => readable = true → σ.vnodeAt file.path = some file.vnode
  | _ => True

def Read (σ : State) : Label → Prop
  | .unlinks path => ∀ process ∈ σ.processes, process.file.path ≠ path
  | .decides _ _ readable => readable = true
  | .evaluates _ _ readable => readable = true
  | _ => True

instance (σ : State) (vnode : SantaVnode) : Decidable (σ.Known vnode) :=
  inferInstanceAs (Decidable (_ ∨ _ ∨ _))

instance settledDecidable (σ : State) : (l : Label) → Decidable (Settled σ l)
  | .links _ _ => inferInstanceAs (Decidable (∀ process ∈ σ.processes, _ → _))
  | .rewrites _ _ => inferInstanceAs (Decidable (_ → _))
  | .decides _ _ _ => inferInstanceAs (Decidable (_ → _))
  | .unlinks _ | .forgets _ | .starts _ | .exits _ | .evaluates _ _ _ => .isTrue trivial

instance readDecidable (σ : State) : (l : Label) → Decidable (Read σ l)
  | .unlinks _ => inferInstanceAs (Decidable (∀ process ∈ σ.processes, _))
  | .decides _ _ _ | .evaluates _ _ _ => inferInstanceAs (Decidable (_ = _))
  | .links _ _ | .rewrites _ _ | .forgets _ | .starts _ | .exits _ => .isTrue trivial

/-- The hash of the content that the process was started from, or the one that nothing matches. -/
def HashOrTerminal (σ : State) : Prop :=
  ∀ process ∈ σ.processes, ∀ readable,
    σ.certificateHash readable process = process.startedFrom.certificateHash ∨
      σ.certificateHash readable process = kBadCertHash

def Current (σ : State) : Prop :=
  ∀ process ∈ σ.processes,
    σ.certificateHash true process = process.startedFrom.certificateHash

instance (σ : State) : Decidable (Current σ) :=
  inferInstanceAs (Decidable (∀ process ∈ σ.processes, _))

theorem kept_boot (missed : Prop) (vnodeAt : String → Option SantaVnode)
    (content : SantaVnode → Content) : Kept missed (boot vnodeAt content) where
  cached := by
    intro vnode hash stored
    cases stored
  decided := by
    intro vnode cd stored
    cases stored
  started := by
    intro process running
    cases running
  named := by
    intro process running
    cases running

theorem leaf_of_kept {missed : Prop} {σ : State} {process : Process} {readable : Bool}
    (kept : Kept missed σ) (running : process ∈ σ.processes) (read : missed ∨ readable = true) :
    ∃ leaf : Option String, leafHash (σ.sources readable) process.file = leaf.filter (· ≠ "") ∧
      (leaf = (σ.content process.file.vnode).leafCertificate ∨ missed ∧ leaf = none) := by
  cases decision : σ.decisionCache process.file.vnode with
  | some cd =>
    refine ⟨cd.certSHA256, ?_, kept.decided _ cd decision⟩
    simp only [leafHash, State.sources, decision]
  | none =>
    refine ⟨σ.leafCertificate readable process.file.path, ?_, ?_⟩
    · simp only [leafHash, State.sources, decision]
    · cases readable with
      | false => exact .inr ⟨read.resolve_right (by decide), rfl⟩
      | true =>
        rcases kept.named process running with named | ⟨miss, gone⟩
        · exact .inl (by simp [State.leafCertificate, named])
        · exact .inr ⟨miss, by simp [State.leafCertificate, gone]⟩

theorem certificateHash_of_kept {missed : Prop} {σ : State} {process : Process} {readable : Bool}
    (kept : Kept missed σ) (running : process ∈ σ.processes) (read : missed ∨ readable = true) :
    σ.certificateHash readable process = process.startedFrom.certificateHash ∨
      missed ∧ σ.certificateHash readable process = kBadCertHash := by
  rw [kept.started process running, State.certificateHash, getCertificateHash_eq]
  cases found : σ.certHashCache.get process.file.vnode with
  | some hash => exact kept.cached _ hash found
  | none =>
    obtain ⟨leaf, looked, good⟩ := leaf_of_kept kept running read
    rw [looked]
    rcases good with rfl | ⟨miss, rfl⟩
    · exact .inl rfl
    · exact .inr ⟨miss, rfl⟩

/-! ### Steps -/

theorem content_of_rewrites {σ : State} {vnode other : SantaVnode} {content : Content}
    (settled : Settled σ (.rewrites vnode content)) (known : σ.Known other) :
    Function.update σ.content vnode content other = σ.content other := by
  by_cases same : other = vnode
  · subst same
    rw [Function.update_self]
    exact settled known
  · exact Function.update_of_ne same _ _

theorem kept_rewrites {missed : Prop} {σ : State} {vnode : SantaVnode} {content : Content}
    (kept : Kept missed σ) (settled : Settled σ (.rewrites vnode content)) :
    Kept missed { σ with content := Function.update σ.content vnode content } where
  cached := by
    intro other hash stored
    dsimp only at stored ⊢
    rw [content_of_rewrites settled (.inl (by rw [stored]; rfl))]
    exact kept.cached other hash stored
  decided := by
    intro other cd stored
    dsimp only at stored ⊢
    rw [content_of_rewrites settled (.inr (.inl (by rw [stored]; rfl)))]
    exact kept.decided other cd stored
  started := by
    intro process running
    dsimp only at running ⊢
    rw [content_of_rewrites settled (.inr (.inr ⟨process, running, rfl⟩))]
    exact kept.started process running
  named := kept.named

theorem kept_decides {missed : Prop} {σ : State} {file : EsFile} {cd : SNTCachedDecision}
    {readable : Bool} (kept : Kept missed σ) (settled : Settled σ (.decides file cd readable))
    (read : missed ∨ readable = true) :
    Kept missed { σ with
      decisionCache := Function.update σ.decisionCache file.vnode
        (some { cd with certSHA256 := σ.leafCertificate readable file.path }) } where
  cached := kept.cached
  decided := by
    intro vnode stored_cd stored
    dsimp only at stored ⊢
    by_cases same : vnode = file.vnode
    · subst same
      rw [Function.update_self, Option.some.injEq] at stored
      subst stored
      cases readable with
      | false => exact .inr ⟨read.resolve_right (by decide), rfl⟩
      | true => exact .inl (by simp [State.leafCertificate, settled rfl])
    · simp only [Function.update_of_ne same] at stored
      exact kept.decided vnode stored_cd stored
  started := kept.started
  named := kept.named

theorem kept_evaluates {missed : Prop} {σ : State} {process : Process}
    {policyProc : WatchItemProcess} {readable : Bool} (kept : Kept missed σ)
    (running : process ∈ σ.processes) (read : missed ∨ readable = true) :
    Kept missed { σ with
      certHashCache := (policyMatchesProcess (σ.sources readable) σ.certHashCache policyProc
        process.esProc).2 } where
  cached := by
    intro vnode hash stored
    rcases policyMatchesProcess_stored stored with before | ⟨rfl, rfl⟩
    · exact kept.cached vnode hash before
    · rw [← kept.started process running]
      exact certificateHash_of_kept kept running read
  decided := kept.decided
  started := kept.started
  named := kept.named

theorem kept_step {missed : Prop} {σ τ : State} {l : Label} (kept : Kept missed σ)
    (settled : Settled σ l) (read : missed ∨ Read σ l) (next : step σ l = some τ) :
    Kept missed τ := by
  cases l with
  | links path vnode =>
    cases next
    refine ⟨kept.cached, kept.decided, kept.started, fun process running => ?_⟩
    dsimp only at running ⊢
    by_cases same : process.file.path = path
    · exact .inl (by rw [← same, Function.update_self, settled process running same])
    · simp only [Function.update_of_ne same]
      exact kept.named process running
  | unlinks path =>
    cases next
    refine ⟨kept.cached, kept.decided, kept.started, fun process running => ?_⟩
    dsimp only at running ⊢
    by_cases same : process.file.path = path
    · rcases read with miss | others
      · exact .inr ⟨miss, by rw [← same, Function.update_self]⟩
      · exact absurd same (others process running)
    · simp only [Function.update_of_ne same]
      exact kept.named process running
  | rewrites vnode content =>
    cases next
    exact kept_rewrites kept settled
  | decides file cd readable =>
    cases next
    exact kept_decides kept settled read
  | forgets vnode =>
    cases next
    refine ⟨kept.cached, fun other cd stored => ?_, kept.started, kept.named⟩
    dsimp only at stored ⊢
    by_cases same : other = vnode
    · rw [same, Function.update_self] at stored
      cases stored
    · simp only [Function.update_of_ne same] at stored
      exact kept.decided other cd stored
  | starts esProc =>
    simp only [step] at next
    split at next
    · rename_i named
      cases next
      refine ⟨kept.cached, kept.decided, fun process running => ?_, fun process running => ?_⟩
      · rcases List.mem_cons.mp running with rfl | before
        · rfl
        · exact kept.started process before
      · rcases List.mem_cons.mp running with rfl | before
        · exact .inl named
        · exact kept.named process before
    · cases next
  | exits process =>
    cases next
    exact ⟨kept.cached, kept.decided, fun other running =>
      kept.started other (List.mem_of_mem_erase running), fun other running =>
      kept.named other (List.mem_of_mem_erase running)⟩
  | evaluates process policyProc readable =>
    simp only [step] at next
    split at next
    · rename_i running
      cases next
      exact kept_evaluates kept running read
    · cases next

/-! ### Whole runs -/

theorem hashOrTerminal_of_kept {σ : State} (kept : Kept True σ) : HashOrTerminal σ := by
  intro process running readable
  have read : True ∨ readable = true := .inl trivial
  rcases certificateHash_of_kept kept running read with hash | ⟨_, terminal⟩
  · exact .inl hash
  · exact .inr terminal

theorem current_of_kept {σ : State} (kept : Kept False σ) : Current σ := by
  intro process running
  rcases certificateHash_of_kept kept running (.inr rfl) with hash | ⟨missed, _⟩
  · exact hash
  · exact missed.elim

/-- Where no vnode changes under what is remembered of it, a lookup gives the hash of the content
    that the process was started from or the one that nothing matches; and always the former where
    no read is missed. -/
theorem hash_of_start {vnodeAt : String → Option SantaVnode} {content : SantaVnode → Content}
    {ls : List Label} (settled : Meets step Settled (boot vnodeAt content) ls) :
    Always step HashOrTerminal (boot vnodeAt content) ls ∧
      (Meets step Read (boot vnodeAt content) ls →
        Always step Current (boot vnodeAt content) ls) := by
  constructor
  · refine always_mono (fun σ => hashOrTerminal_of_kept) (always_of_meets ?_
      (kept_boot True vnodeAt content) settled)
    exact fun σ l τ kept met next => kept_step kept met (.inl trivial) next
  · intro read
    refine always_mono (fun σ => current_of_kept) (always_of_meets ?_
      (kept_boot False vnodeAt content) (meets_and settled read))
    exact fun σ l τ kept met next => kept_step kept met.1 (.inr met.2) next

def toolVnode : SantaVnode := ⟨1, 7⟩
def toolFile : EsFile := ⟨"/usr/local/bin/tool", false, 1, 7⟩
def toolAt (path : String) : Option SantaVnode :=
  if path = toolFile.path then some toolVnode else none
def signedWith (leaf : String) : Content := ⟨some leaf⟩
def tool : EsProcess := ⟨(100, 1), CS_SIGNED, false, none, none, [], toolFile⟩
def sameCertificate : WatchItemProcess := ⟨"", "", "", [], "a1", false, none⟩

/-- The tool is replaced before anything is known of it, decided, started and evaluated, and
    started again from a second link after its decision was dropped. -/
theorem tool_current :
    Always step Current (boot toolAt fun _ => signedWith "b2")
      [.rewrites toolVnode (signedWith "a1"), .decides toolFile .new true, .starts tool,
        .evaluates ⟨tool, signedWith "a1"⟩ sameCertificate true, .forgets toolVnode,
        .links "/usr/local/bin/other" toolVnode,
        .starts { tool with executable := { toolFile with path := "/usr/local/bin/other" } }] :=
  (hash_of_start (by decide +kernel)).2 (by decide +kernel)

/-- The signature is unreadable at the first evaluation; or the tool is signed anew on its vnode
    after the first process has exited, and the second is matched by the hash of the first. -/
theorem missed_or_rewritten_stale :
    ¬ Always step Current (boot toolAt fun _ => signedWith "a1")
      [.starts tool, .evaluates ⟨tool, signedWith "a1"⟩ sameCertificate false] ∧
    ¬ Always step Current (boot toolAt fun _ => signedWith "a1")
      [.starts tool, .evaluates ⟨tool, signedWith "a1"⟩ sameCertificate true,
        .exits ⟨tool, signedWith "a1"⟩, .rewrites toolVnode (signedWith "b2"), .starts tool] := by
  constructor
  · intro always
    exact absurd (always_last always (Option.some_get (by decide +kernel)).symm) (by decide +kernel)
  · intro always
    exact absurd (always_last always (Option.some_get (by decide +kernel)).symm) (by decide +kernel)

end SantaCertificateHashes
