import Pooler.Spec.Http.WebSocketPool

/-! What one event can do to the pool, said as moves: entries disappear, an idle connection becomes
a turn of a request with its identity, a turn gets a new socket, a turn's connection becomes idle. -/

namespace Pooler.WebSocketPool

open Lib OrderedMap

variable {δ κ : Type} [LinearOrder δ] {sha256 : List UInt8 → δ} {limits : WebSocketLimits}

/-- What an event does, for requests that meet `ok`. -/
inductive Move (sha256 : List UInt8 → δ) (ok : WebSocketRequest → Prop) :
    WebSocketPool δ κ → WebSocketPool δ κ → Prop where
  | shrink {pool} (connections turns)
    (hconnections : connections.Within pool.connections) (hturns : turns.Within pool.turns) :
    Move sha256 ok pool ⟨connections, turns, pool.nextSocket⟩
  | resume {pool} (turn : ℕ) (request : WebSocketRequest)
    (cached : CachedConnection κ) (connections) (hok : ok request)
    (hcached : pool.connections.get (request.identity sha256) = some cached)
    (hconnections : connections.Within pool.connections)
    (htaken : connections.get (request.identity sha256) = none) :
    Move sha256 ok pool ⟨connections,
      pool.turns.insert turn ⟨request, cached.connection, cached.continuation⟩, pool.nextSocket⟩
  | connect {pool} (turn : ℕ) (request : WebSocketRequest) (now : ℕ)
    (hok : ok request) : Move sha256 ok pool (pool.connect turn request now)
  | park {pool} (turn : ℕ) (held : Turn κ) (now : ℕ) (continuation : Option κ)
    (hheld : pool.turns.get turn = some held) :
    Move sha256 ok pool ⟨pool.connections.insert (held.request.identity sha256)
      ⟨held.connection, now, continuation⟩, pool.turns.erase turn, pool.nextSocket⟩

abbrev Moves (sha256 : List UInt8 → δ) (ok : WebSocketRequest → Prop) :
    WebSocketPool δ κ → WebSocketPool δ κ → Prop :=
  Relation.ReflTransGen (Move sha256 ok)

variable {pool pool' : WebSocketPool δ κ}

theorem Moves.keep {sha256 ok} (inv : WebSocketPool δ κ → Prop)
    (hmove : ∀ {p p'}, Move sha256 ok p p' → inv p → inv p') (h : Moves sha256 ok pool pool')
    (hpool : inv pool) : inv pool' := by
  induction h with
  | refl => exact hpool
  | tail _ hlast ih => exact hmove hlast ih

theorem within_remaining (identity : ConnectionIdentity δ)
    (connections : OrderedMap (ConnectionIdentity δ) (CachedConnection κ)) :
    (remaining identity connections).Within connections := by
  unfold remaining
  split
  · exact (within_erase _ _).trans (within_retain _ _)
  · exact within_retain _ _

variable {connections : OrderedMap (ConnectionIdentity δ) (CachedConnection κ)} {identity : ConnectionIdentity δ}
  {cached : CachedConnection κ}

theorem cachedFor_eq_some (h : cachedFor identity (invalidate identity connections) = some cached) :
    connections.get identity = some cached ∧ (remaining identity connections).get identity = none := by
  unfold cachedFor at h
  split_ifs at h with hcach
  refine ⟨within_retain _ _ _ _ h, ?_⟩
  rw [remaining, if_pos hcach, get_erase_self]

theorem within_evictOldest (connections : OrderedMap (ConnectionIdentity δ) (CachedConnection κ)) :
    (evictOldest connections).Within connections := by
  unfold evictOldest
  split
  · exact within_erase _ _
  · exact .refl _

theorem within_evict (connections : OrderedMap (ConnectionIdentity δ) (CachedConnection κ)) :
    (evict limits connections).Within connections :=
  whileLoop_invariant (fun reached => reached.Within connections)
    (fun reached hreac _ => (within_evictOldest reached).trans hreac) _ connections (.refl _)

theorem size_evictOldest_lt (h : 0 < connections.size) : (evictOldest connections).size < connections.size := by
  unfold evictOldest oldest
  cases hold : minBy (fun a b => compare a.2.lastUsedAt b.2.lastUsedAt) connections.entries with
  | none =>
    have hnil : connections.entries = [] := by
      cases hents : connections.entries with
      | nil => rfl
      | cons =>
        rw [hents] at hold
        cases hold
    unfold OrderedMap.size at h
    rw [hnil] at h
    cases h
  | some entry =>
    have hm : (entry.1, entry.2) ∈ connections.entries := minBy_mem hold
    have hcon := contains_iff.2 ⟨_, get_of_mem hm⟩
    have := size_erase hcon
    simp only [Option.map_some]
    omega

theorem size_evict_le (connections : OrderedMap (ConnectionIdentity δ) (CachedConnection κ)) :
    (evict limits connections).size ≤ limits.maxIdleConnections := by
  have hdone : overfull limits (evict limits connections) = false := by
    refine whileLoop_done (fun _ => True) OrderedMap.size (fun reached _ hsize => ⟨trivial, ?_⟩)
      connections.size connections trivial le_rfl
    exact size_evictOldest_lt (Nat.zero_lt_of_lt (of_decide_eq_true hsize))
  exact Nat.le_of_not_lt (of_decide_eq_false hdone)

variable {ok : WebSocketRequest → Prop}

theorem acquire_moves (pool : WebSocketPool δ κ) (turn : ℕ) {request} (now : ℕ) (connects : Bool) (hok : ok request) :
    Moves sha256 ok pool (pool.acquire sha256 limits turn request now connects) := by
  have hrem := within_remaining (request.identity sha256) pool.connections
  have hshr : Move sha256 ok pool
      { pool with connections := remaining (request.identity sha256) pool.connections } :=
    .shrink _ _ hrem (.refl _)
  have hopn : Moves sha256 ok pool
      (if connects then
        WebSocketPool.connect
          { pool with connections := remaining (request.identity sha256) pool.connections } turn request now
      else { pool with connections := remaining (request.identity sha256) pool.connections }) := by
    split
    · exact .tail (.single hshr) (.connect turn request now hok)
    · exact .single hshr
  unfold acquire
  dsimp only
  split
  next cached hcac =>
    obtain ⟨hg, htkn⟩ := cachedFor_eq_some hcac
    split
    · exact .single (.resume turn request cached _ hok hg hrem htkn)
    · exact hopn
  · exact hopn

theorem release_moves (pool : WebSocketPool δ κ) (turn : ℕ) (cont : Option κ) (keep : Bool)
    (now : ℕ) : Moves sha256 ok pool (pool.release sha256 limits turn cont keep now) := by
  unfold release
  split
  · exact .refl
  next held hheld =>
    dsimp only
    split
    · exact .single (.shrink _ _ (.refl _) (within_erase _ _))
    · exact .tail (.single (.park turn held now cont hheld)) (.shrink _ _ (within_evict _) (.refl _))

theorem step_moves (pool : WebSocketPool δ κ) (event : Event κ)
    (hok : ∀ turn request now connects, event = .acquire turn request now connects → ok request) :
    Moves sha256 ok pool (pool.step sha256 limits event) := by
  cases event with
  | acquire turn request now connects =>
    unfold step
    dsimp only
    split
    · exact .refl
    · exact acquire_moves pool turn now connects (hok _ _ _ _ rfl)
  | release turn cont keep now => exact release_moves pool turn cont keep now
  | drop => exact .single (.shrink _ _ (.refl _) (within_erase _ _))
  | cleanup => exact .single (.shrink _ _ (within_retain _ _) (.refl _))

/-- Connections are idle under, and used for, the identity they were opened for. -/
structure Filed (sha256 : List UInt8 → δ) (ok : WebSocketRequest → Prop) (pool : WebSocketPool δ κ) :
    Prop where
  idle : ∀ identity cached, pool.connections.get identity = some cached →
    cached.connection.opened.identity sha256 = identity ∧ ok cached.connection.opened
  held : ∀ turn held, pool.turns.get turn = some held →
    held.connection.opened.identity sha256 = held.request.identity sha256 ∧ ok held.connection.opened ∧ ok held.request

theorem Move.filed (h : Move sha256 ok pool pool') (hfil : Filed sha256 ok pool) : Filed sha256 ok pool' := by
  cases h with
  | shrink connections turns hconn htur =>
    exact ⟨fun identity cached hg => hfil.idle _ _ (hconn _ _ hg),
      fun turn held hg => hfil.held _ _ (htur _ _ hg)⟩
  | resume turn request cached connections hok hcac hconn =>
    refine ⟨fun identity cached hg => hfil.idle _ _ (hconn _ _ hg),
      forall_insert ?_ fun turn' held _ hg => hfil.held _ _ hg⟩
    obtain ⟨hid, hopn⟩ := hfil.idle _ _ hcac
    exact ⟨hid, hopn, hok⟩
  | connect turn request now hok =>
    exact ⟨hfil.idle, forall_insert ⟨rfl, hok, hok⟩ fun turn' held _ hg => hfil.held _ _ hg⟩
  | park turn held now cont hheld =>
    obtain ⟨hopn, hok, -⟩ := hfil.held _ _ hheld
    exact ⟨forall_insert ⟨hopn, hok⟩ fun identity cached _ hg => hfil.idle _ _ hg,
      fun turn' held' hg => hfil.held _ _ (within_erase _ _ _ _ hg)⟩

/-- Who holds a socket: an identity that keeps it idle, or a turn. -/
def Holds (pool : WebSocketPool δ κ) (holder : ConnectionIdentity δ ⊕ ℕ) (socket : ℕ) : Prop :=
  match holder with
  | .inl identity => ∃ cached, pool.connections.get identity = some cached ∧ cached.connection.socket = socket
  | .inr turn => ∃ held, pool.turns.get turn = some held ∧ held.connection.socket = socket

/-- A socket has one holder, and numbers are not given out twice. -/
structure Owned (pool : WebSocketPool δ κ) : Prop where
  unique : ∀ a b socket, pool.Holds a socket → pool.Holds b socket → a = b
  fresh : ∀ a socket, pool.Holds a socket → socket < pool.nextSocket

theorem Owned.of_passing (h : Owned pool) (hnext : pool'.nextSocket = pool.nextSocket)
    (pass : ConnectionIdentity δ ⊕ ℕ → ConnectionIdentity δ ⊕ ℕ)
    (hpass : ∀ a socket, pool'.Holds a socket → pool.Holds (pass a) socket)
    (hback : ∀ a b socket, pool'.Holds a socket → pool'.Holds b socket → pass a = pass b → a = b) : Owned pool' := by
  refine ⟨fun a b socket ha hb => ?_, fun a socket ha => ?_⟩
  · exact hback a b socket ha hb (h.unique _ _ socket (hpass a socket ha) (hpass b socket hb))
  · rw [hnext]
    exact h.fresh _ _ (hpass a socket ha)

theorem Holds.of_within {a} {socket : ℕ} (hconn : pool'.connections.Within pool.connections)
    (htur : pool'.turns.Within pool.turns) (h : pool'.Holds a socket) : pool.Holds a socket := by
  match a, h with
  | .inl identity, ⟨cached, hg, hsoc⟩ => exact ⟨cached, hconn _ _ hg, hsoc⟩
  | .inr turn, ⟨held, hg, hsoc⟩ => exact ⟨held, htur _ _ hg, hsoc⟩

/-- One holder hands its socket over to another, and all others keep theirs. -/
theorem Owned.hand_over (h : Owned pool) (hnext : pool'.nextSocket = pool.nextSocket)
    (old new : ConnectionIdentity δ ⊕ ℕ) (hgone : ∀ socket, ¬ pool'.Holds old socket)
    (hw : ∀ socket, pool'.Holds new socket → pool.Holds old socket)
    (hoths : ∀ a socket, a ≠ new → pool'.Holds a socket → pool.Holds a socket) : Owned pool' := by
  refine h.of_passing hnext (fun a => if a = new then old else a) (fun a socket ha => ?_)
    fun a b socket ha hb heq => ?_
  · split_ifs with hnewA
    · exact hw socket (hnewA ▸ ha)
    · exact hoths a socket hnewA ha
  · split_ifs at heq with hnewA hnewB hnewB
    · rw [hnewA, hnewB]
    · exact absurd (heq ▸ hb) (hgone socket)
    · exact absurd (heq ▸ ha) (hgone socket)
    · exact heq

theorem resume_owned {pool} {turn : ℕ} {held} (h : Owned pool) (hcac : pool.connections.get identity = some cached)
    (hsoc : held.connection.socket = cached.connection.socket)
    (hconn : connections.Within pool.connections) (htkn : connections.get identity = none) :
    Owned ⟨connections, pool.turns.insert turn held, pool.nextSocket⟩ := by
  refine h.hand_over rfl (.inl identity) (.inr turn) ?_ ?_ ?_
  · rintro socket ⟨cached', hg, -⟩
    cases htkn.symm.trans hg
  · rintro socket ⟨held', hg, hsoc'⟩
    cases (get_insert_self _ _ _).symm.trans hg
    exact ⟨cached, hcac, hsoc.symm.trans hsoc'⟩
  · rintro (other | turn') socket hne ⟨kept, hg, hsoc'⟩
    · exact ⟨kept, hconn _ _ hg, hsoc'⟩
    · rw [get_insert, if_neg fun heq => hne (congrArg Sum.inr heq.symm)] at hg
      exact ⟨kept, hg, hsoc'⟩

theorem park_owned {pool} {turn : ℕ} {held} (h : Owned pool)
    (hheld : pool.turns.get turn = some held) (hsoc : cached.connection.socket = held.connection.socket) :
    Owned ⟨pool.connections.insert identity cached, pool.turns.erase turn, pool.nextSocket⟩ := by
  refine h.hand_over rfl (.inr turn) (.inl identity) ?_ ?_ ?_
  · rintro socket ⟨held', hg, -⟩
    cases (get_erase_self _ _).symm.trans hg
  · rintro socket ⟨cached', hg, hsoc'⟩
    cases (get_insert_self _ _ _).symm.trans hg
    exact ⟨held, hheld, hsoc.symm.trans hsoc'⟩
  · rintro (other | turn') socket hne ⟨kept, hg, hsoc'⟩
    · rw [get_insert, if_neg fun heq => hne (congrArg Sum.inl heq.symm)] at hg
      exact ⟨kept, hg, hsoc'⟩
    · exact ⟨kept, within_erase _ _ _ _ hg, hsoc'⟩

theorem connect_owned {pool : WebSocketPool δ κ} (turn : ℕ) (request : WebSocketRequest) (now : ℕ)
    (h : Owned pool) : Owned (pool.connect turn request now) := by
  have hcas : ∀ a socket, (pool.connect turn request now).Holds a socket →
      (a = .inr turn ∧ socket = pool.nextSocket) ∨ pool.Holds a socket := by
    rintro (identity | turn') socket ha
    · exact .inr ha
    · obtain ⟨held, hg, rfl⟩ := ha
      revert turn' held
      exact forall_insert (.inl ⟨rfl, rfl⟩) fun turn' held _ hg => .inr ⟨held, hg, rfl⟩
  refine ⟨fun a b socket ha hb => ?_, fun a socket ha => ?_⟩
  · rcases hcas a socket ha with ⟨rfl, rfl⟩ | ha' <;> rcases hcas b _ hb with ⟨rfl, hsoc⟩ | hb'
    · rfl
    · exact absurd (h.fresh _ _ hb') (lt_irrefl _)
    · exact absurd (h.fresh _ _ ha') (by rw [hsoc]; exact lt_irrefl _)
    · exact h.unique _ _ _ ha' hb'
  · rcases hcas a socket ha with ⟨-, rfl⟩ | ha'
    · exact Nat.lt_succ_self _
    · exact (h.fresh _ _ ha').trans (Nat.lt_succ_self _)

theorem Move.owned (h : Move sha256 ok pool pool') (hown : Owned pool) : Owned pool' := by
  cases h with
  | shrink connections turns hconn htur =>
    exact hown.of_passing rfl id (fun _ _ ha => ha.of_within hconn htur) fun _ _ _ _ _ heq => heq
  | resume turn request cached connections hok hcac hconn htkn =>
    exact resume_owned hown hcac rfl hconn htkn
  | connect turn request now => exact connect_owned turn request now hown
  | park turn held now cont hheld => exact park_owned hown hheld rfl

theorem acquire_connections (pool : WebSocketPool δ κ) (turn : ℕ) (request : WebSocketRequest)
    (now : ℕ) (connects : Bool) :
    (pool.acquire sha256 limits turn request now connects).connections =
      remaining (request.identity sha256) pool.connections := by
  unfold acquire
  dsimp only
  split
  · split
    · rfl
    · cases connects <;> rfl
  · cases connects <;> rfl

theorem step_size_le (pool : WebSocketPool δ κ) (event : Event κ)
    (h : pool.connections.size ≤ limits.maxIdleConnections) :
    (pool.step sha256 limits event).connections.size ≤ limits.maxIdleConnections := by
  cases event with
  | acquire turn request =>
    have hrem : (remaining (request.identity sha256) pool.connections).size ≤
        limits.maxIdleConnections := by
      refine le_trans ?_ h
      unfold remaining
      split
      · exact (List.length_filter_le _ _).trans (size_retain_le _ _)
      · exact size_retain_le _ _
    unfold step
    dsimp only
    split
    · exact h
    · rw [acquire_connections]
      exact hrem
  | release =>
    simp only [step, release]
    split
    · exact h
    · split
      · exact h
      · exact size_evict_le _
  | drop => exact h
  | cleanup => exact (size_retain_le _ _).trans h

end Pooler.WebSocketPool
