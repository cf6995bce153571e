import Mathlib.Algebra.Group.Nat.Defs
import Santa.Common.SantaCache

/-!
The cache of authorization results, by vnode. An entry goes from the placeholder
of an evaluation under way to its response, never directly. A value packs the
action (8 bits) with the uptime in nanoseconds (56 bits); packed or not, zero is
the value of an absent key. Vnodes of the root file system have a table of their
own. The flush counter and the flush's reason are left out.
-/
namespace SantaAuthCache

inductive SNTAction where
  | unset
  | requestBinary
  | respondAllow
  | respondAllowNoCache
  | respondDeny
  | respondAllowCompiler
  | respondHold
  | holdAllowed
  | holdDenied
  deriving DecidableEq, Repr

def RESPONSE_VALID : SNTAction → Bool
  | .respondAllow | .respondDeny | .respondAllowCompiler => true
  | _ => false

structure SantaVnode where
  fsid : Nat
  fileid : Nat
  deriving DecidableEq, Repr

structure CachedAction where
  action : SNTAction
  timestamp : Nat
  deriving DecidableEq, Repr

instance : Inhabited CachedAction := ⟨⟨.unset, 0⟩⟩

def cacheableAction (action : SNTAction) (timestamp : Nat) : CachedAction :=
  ⟨action, timestamp % 2 ^ 56⟩

structure AuthResultCache where
  rootCache : SantaCache SantaVnode CachedAction
  nonrootCache : SantaCache SantaVnode CachedAction
  rootDevno : Nat
  cacheDenyTimeNs : Nat

def AuthResultCache.create (rootDevno cacheDenyTimeMs : Nat) : AuthResultCache :=
  ⟨.new 10000, .new 10000, rootDevno, cacheDenyTimeMs * 1000000 % 2 ^ 64⟩

namespace AuthResultCache

def isRoot (c : AuthResultCache) (vnode : SantaVnode) : Bool :=
  vnode.fsid = c.rootDevno || c.rootDevno = 0

def cacheForVnodeID (c : AuthResultCache) (vnode : SantaVnode) : SantaCache SantaVnode CachedAction :=
  if c.isRoot vnode then c.rootCache else c.nonrootCache

def withCacheFor (c : AuthResultCache) (vnode : SantaVnode)
    (cache : SantaCache SantaVnode CachedAction) : AuthResultCache :=
  if c.isRoot vnode then { c with rootCache := cache } else { c with nonrootCache := cache }

def get (c : AuthResultCache) (vnode : SantaVnode) : CachedAction :=
  (c.cacheForVnodeID vnode).get vnode

def store (c : AuthResultCache) (vnode : SantaVnode) (value : CachedAction)
    (previous : Option CachedAction) : Bool × AuthResultCache :=
  let (set, cache) := (c.cacheForVnodeID vnode).set vnode value previous
  (set, c.withCacheFor vnode cache)

def removeFromCache (c : AuthResultCache) (vnode : SantaVnode) : AuthResultCache :=
  c.withCacheFor vnode ((c.cacheForVnodeID vnode).remove vnode)

def placeholder : CachedAction := cacheableAction .requestBinary 0

/-- No action other than these is added: the daemon would exit. -/
def addToCache (c : AuthResultCache) (vnode : SantaVnode) (decision : SNTAction)
    (currentUptime : Nat) : Option (Bool × AuthResultCache) :=
  match decision with
  | .requestBinary => some (c.store vnode placeholder (some default))
  | .respondHold => some (c.store vnode (cacheableAction .respondHold 0) (some placeholder))
  | .respondAllow | .respondAllowCompiler | .respondDeny =>
      some (c.store vnode (cacheableAction decision currentUptime) (some placeholder))
  | .holdAllowed | .holdDenied => some (true, c.removeFromCache vnode)
  | .respondAllowNoCache => some (true, c)
  | .unset => none

inductive Lookup where
  | expired
  | found (action : SNTAction)
  deriving DecidableEq, Repr

def lookup (c : AuthResultCache) (vnode : SantaVnode) (currentUptime : Nat) : Lookup :=
  let cached := c.get vnode
  if cached.action = .respondDeny ∧
      (cached.timestamp + c.cacheDenyTimeNs) % 2 ^ 64 < currentUptime then .expired
  else .found cached.action

def checkCache (c : AuthResultCache) (vnode : SantaVnode) (currentUptime : Nat) :
    SNTAction × AuthResultCache :=
  match c.lookup vnode currentUptime with
  | .expired => (.unset, c.removeFromCache vnode)
  | .found action => (action, c)

inductive FlushCacheMode where
  | nonRootOnly
  | allCaches
  deriving DecidableEq, Repr

/-- The cache of Endpoint Security is cleared as well when all caches are. -/
def flushCache (c : AuthResultCache) (mode : FlushCacheMode) : AuthResultCache × Bool :=
  let c := { c with nonrootCache := c.nonrootCache.clear }
  match mode with
  | .nonRootOnly => (c, false)
  | .allCaches => ({ c with rootCache := c.rootCache.clear }, true)

/-- The flush empties the table that the vnode belongs to. -/
def flushes (c : AuthResultCache) (mode : FlushCacheMode) (vnode : SantaVnode) : Bool :=
  mode = .allCaches || !c.isRoot vnode

/-! ### What the operations do to one vnode -/

theorem get_create (rootDevno cacheDenyTimeMs : Nat) (vnode : SantaVnode) :
    (create rootDevno cacheDenyTimeMs).get vnode = default := by
  unfold create get cacheForVnodeID
  split <;> rfl

@[simp] theorem isRoot_withCacheFor (c : AuthResultCache) (vnode vnode' : SantaVnode)
    (cache : SantaCache SantaVnode CachedAction) :
    (c.withCacheFor vnode cache).isRoot vnode' = c.isRoot vnode' := by
  unfold withCacheFor isRoot
  split_ifs <;> rfl

theorem get_withCacheFor_self (c : AuthResultCache) (vnode : SantaVnode)
    (cache : SantaCache SantaVnode CachedAction) :
    (c.withCacheFor vnode cache).get vnode = cache.get vnode := by
  unfold get cacheForVnodeID
  rw [isRoot_withCacheFor]
  unfold withCacheFor
  by_cases root : c.isRoot vnode = true
  · simp [root]
  · simp [root]

theorem get_withCacheFor (c : AuthResultCache) (vnode vnode' : SantaVnode)
    (cache : SantaCache SantaVnode CachedAction) :
    (c.withCacheFor vnode cache).get vnode' = c.get vnode' ∨
      ((c.withCacheFor vnode cache).get vnode' = cache.get vnode' ∧
        c.get vnode' = (c.cacheForVnodeID vnode).get vnode') := by
  unfold get cacheForVnodeID
  rw [isRoot_withCacheFor]
  unfold withCacheFor
  by_cases root : c.isRoot vnode = true
  · by_cases root' : c.isRoot vnode' = true
    · simp [root, root']
    · simp [root, root']
  · by_cases root' : c.isRoot vnode' = true
    · simp [root, root']
    · simp [root, root']

theorem get_store_self {c : AuthResultCache} {vnode : SantaVnode} {value : CachedAction}
    {previous : CachedAction} (accepted : c.get vnode = previous) :
    (c.store vnode value (some previous)).2.get vnode = value := by
  unfold store
  rw [get_withCacheFor_self]
  exact SantaCache.get_set_self (by simpa [get] using accepted.symm)

theorem get_store_refused {c : AuthResultCache} {vnode : SantaVnode} {value previous : CachedAction}
    (other : c.get vnode ≠ previous) (vnode' : SantaVnode) :
    (c.store vnode value (some previous)).2.get vnode' = c.get vnode' := by
  unfold store
  rw [SantaCache.set_refused other]
  rcases get_withCacheFor c vnode vnode' (c.cacheForVnodeID vnode) with same | ⟨same, own⟩
  · exact same
  · exact same.trans own.symm

theorem store_accepted {c : AuthResultCache} {vnode : SantaVnode} {value previous : CachedAction}
    (nonzero : value ≠ default) (same : c.get vnode = previous) :
    (c.store vnode value (some previous)).1 = true :=
  SantaCache.set_accepted nonzero same

theorem store_refused {c : AuthResultCache} {vnode : SantaVnode} {value previous : CachedAction}
    (other : c.get vnode ≠ previous) : (c.store vnode value (some previous)).1 = false := by
  unfold store
  rw [SantaCache.set_refused other]

theorem get_store_other {c : AuthResultCache} {vnode vnode' : SantaVnode} (value : CachedAction)
    (previous : Option CachedAction) (other : vnode' ≠ vnode) :
    (c.store vnode value previous).2.get vnode' = c.get vnode' ∨
      (c.store vnode value previous).2.get vnode' = default := by
  unfold store
  rcases get_withCacheFor c vnode vnode' ((c.cacheForVnodeID vnode).set vnode value previous).2
    with same | ⟨same, own⟩
  · exact .inl same
  · rcases SantaCache.get_set_other value previous other
      (c := c.cacheForVnodeID vnode) with kept | ⟨_, lost⟩
    · exact .inl (same.trans (kept.trans own.symm))
    · exact .inr (same.trans lost)

theorem get_store_unanswered {c : AuthResultCache} {vnode v : SantaVnode}
    {value previous : CachedAction} (invalid : RESPONSE_VALID value.action = false)
    (valid : RESPONSE_VALID ((c.store vnode value (some previous)).2.get v).action = true) :
    (c.store vnode value (some previous)).2.get v = c.get v := by
  by_cases accepted : c.get vnode = previous
  · by_cases same : v = vnode
    · rw [same, get_store_self accepted, invalid] at valid
      exact nomatch valid
    · rcases get_store_other value (some previous) same with kept | lost
      · exact kept
      · rw [lost] at valid
        exact nomatch valid
  · exact get_store_refused accepted v

theorem get_removeFromCache (c : AuthResultCache) (vnode vnode' : SantaVnode) :
    (c.removeFromCache vnode).get vnode' = if vnode' = vnode then default else c.get vnode' := by
  unfold removeFromCache
  by_cases same : vnode' = vnode
  · rw [same, if_pos rfl, get_withCacheFor_self, SantaCache.get_remove, if_pos rfl]
  · rw [if_neg same]
    rcases get_withCacheFor c vnode vnode' ((c.cacheForVnodeID vnode).remove vnode)
      with kept | ⟨new, own⟩
    · exact kept
    · rw [new, own, SantaCache.get_remove, if_neg same]

theorem get_flushCache (c : AuthResultCache) (mode : FlushCacheMode) (vnode : SantaVnode) :
    (c.flushCache mode).1.get vnode = if c.flushes mode vnode then default else c.get vnode := by
  unfold flushCache flushes get cacheForVnodeID isRoot
  cases mode with
  | nonRootOnly =>
    by_cases root : (decide (vnode.fsid = c.rootDevno) || decide (c.rootDevno = 0)) = true
    · simp [root]
    · simp [root]
  | allCaches =>
    simp only [decide_true, Bool.true_or, if_true]
    split_ifs <;> rfl

theorem checkCache_stored {c : AuthResultCache} {vnode : SantaVnode} {currentUptime : Nat}
    (valid : RESPONSE_VALID (c.checkCache vnode currentUptime).1 = true) :
    (c.checkCache vnode currentUptime).1 = (c.get vnode).action := by
  unfold checkCache at valid ⊢
  cases found : c.lookup vnode currentUptime with
  | expired =>
    rw [found] at valid
    exact nomatch valid
  | found action =>
    unfold lookup at found
    simp only at found
    split at found
    · exact nomatch found
    · exact (Lookup.found.inj found).symm

theorem checkCache_zero (c : AuthResultCache) (vnode : SantaVnode) :
    (c.checkCache vnode 0).1 = (c.get vnode).action := by
  simp [checkCache, lookup]

end AuthResultCache

end SantaAuthCache
