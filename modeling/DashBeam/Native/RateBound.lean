import DashBeam.Lib.Machine
import DashBeam.Lib.Table
import DashBeam.Lib.TokenBucket
import DashBeam.Native.RateLimit
import DashBeam.Protocol.Keys

/-!
# What an unpaired peer can get through

The rate limiter over runs of calls whose times do not go back. The bucket of a peer is a lazily
refilled token bucket, so its account bounds what one window lets through. A bucket is dropped by
`prune` only when it is full, and then the account is settled: the bucket made anew for the same peer
continues where the dropped one was.
-/

namespace DashBeam.Native.UnpairedRateLimiter

open Lib Protocol

variable {Id : Type} {I : Iroh Id}

/-- A call of `allow`. -/
structure Call where
  endpointId : String
  now : Nat
  deriving DecidableEq, Repr

/-- The limiter and the time of its last call. -/
structure Clocked where
  limiter : UnpairedRateLimiter
  clock : Nat
  deriving DecidableEq, Repr

/-- Calls of `allow`, each with its answer. -/
def limiterMachine (I : Iroh Id) : Machine Clocked Call Bool where
  step s call :=
    some (⟨(s.limiter.allow I call.endpointId call.now).2, call.now⟩,
      [(s.limiter.allow I call.endpointId call.now).1])

/-- The clock does not go back. -/
def Forward (s : Clocked) (call : Call) : Prop := s.clock ≤ call.now

instance (s : Clocked) (call : Call) : Decidable (Forward s call) :=
  inferInstanceAs (Decidable (s.clock ≤ call.now))

def withConfig (burst refillIntervalMs : Nat) : UnpairedRateLimiter := ⟨burst, refillIntervalMs, []⟩

def width (limiter : UnpairedRateLimiter) : Nat := limiter.refillIntervalMs * 1000000

/-- The calls of a peer that were let through from `start` to `stop`. -/
def accepted (I : Iroh Id) (key : String) (start stop : Nat) (tr : List (Entry Clocked Call Bool)) :
    Nat :=
  tr.countP fun e => I.toLowercase e.act.endpointId == key && decide (start ≤ e.act.now) &&
    decide (e.act.now ≤ stop) && e.out == [true]

/-! ### The map of buckets -/

section Buckets

variable {limiter : UnpairedRateLimiter} {key other : String} {bucket : Bucket} {now : Nat}

@[simp]
theorem setBucket_burst : (limiter.setBucket key bucket).burst = limiter.burst := by
  unfold setBucket
  split <;> rfl

@[simp]
theorem setBucket_refillIntervalMs :
    (limiter.setBucket key bucket).refillIntervalMs = limiter.refillIntervalMs := by
  unfold setBucket
  split <;> rfl

theorem lookup_setBucket : (limiter.setBucket key bucket).buckets.lookup other =
    if other = key then some bucket else limiter.buckets.lookup other := by
  unfold setBucket
  split
  · rename_i hsome
    obtain ⟨old, hold⟩ := Option.isSome_iff_exists.mp hsome
    rw [lookup_replace, hold]
    rfl
  · rename_i hnone
    rw [Option.not_isSome_iff_eq_none] at hnone
    rw [List.lookup_append]
    by_cases hother : other = key
    · simp [hother, hnone]
    · have hne : (other == key) = false := by simpa using hother
      simp [List.lookup_cons, hne, hother]

theorem keys_setBucket (limiter : UnpairedRateLimiter) (key : String) (bucket : Bucket) :
    (limiter.setBucket key bucket).buckets.map Prod.fst =
    if (limiter.buckets.lookup key).isSome then limiter.buckets.map Prod.fst
    else limiter.buckets.map Prod.fst ++ [key] := by
  unfold setBucket
  split
  · rw [List.map_map]
    refine List.map_congr_left fun entry _ => ?_
    by_cases hentry : entry.1 = key
    · simp [hentry]
    · simp [hentry]
  · rw [List.map_append]
    rfl

theorem mem_setBucket {entry : String × Bucket}
    (h : entry ∈ (limiter.setBucket key bucket).buckets) :
    entry = (key, bucket) ∨ entry ∈ limiter.buckets := by
  unfold setBucket at h
  split at h
  · obtain ⟨old, hold, rfl⟩ := List.mem_map.mp h
    by_cases hkey : old.1 = key
    · exact .inl (if_pos hkey)
    · rw [if_neg hkey]
      exact .inr hold
  · rcases List.mem_append.mp h with h | h
    · exact .inr h
    · exact .inl (List.mem_singleton.mp h)

theorem lookup_prune (hkeys : (limiter.buckets.map Prod.fst).Nodup) :
    (limiter.prune now).buckets.lookup key = (limiter.buckets.lookup key).filter fun bucket =>
      saturatingAdd bucket.tokens (limiter.refills bucket now) < limiter.burst := by
  exact lookup_filter hkeys (fun bucket => saturatingAdd bucket.tokens (limiter.refills bucket now) <
    limiter.burst) key

end Buckets

/-! ### One call -/

section Call

variable {limiter : UnpairedRateLimiter} {endpointId key : String} {bucket : Bucket} {now : Nat}

/-- A call is refused for want of room, or charges the bucket of its peer. The map was pruned first
if the peer had no bucket and the map was full. -/
theorem allow_cases (I : Iroh Id) (limiter : UnpairedRateLimiter) (endpointId : String) (now : Nat) :
    (limiter.buckets.lookup (I.toLowercase endpointId) = none ∧
      limiter.allow I endpointId now = (false, limiter.prune now)) ∨
    ∃ base, (base = limiter ∨
        limiter.buckets.lookup (I.toLowercase endpointId) = none ∧ base = limiter.prune now) ∧
      ((base.buckets.lookup (I.toLowercase endpointId)).isSome ∨
        base.buckets.length < maxTrackedPeers) ∧
      limiter.allow I endpointId now = base.charge (I.toLowercase endpointId) now := by
  unfold allow
  dsimp only
  split
  · rename_i hfull
    rw [Bool.and_eq_true, Option.isNone_iff_eq_none] at hfull
    split
    · exact .inl ⟨hfull.1, rfl⟩
    · rename_i hroom
      exact .inr ⟨_, .inr ⟨hfull.1, rfl⟩, .inr (by omega), rfl⟩
  · rename_i hroom
    refine .inr ⟨limiter, .inl rfl, ?_, rfl⟩
    rw [Bool.and_eq_true, Option.isNone_iff_eq_none, decide_eq_true_iff] at hroom
    by_cases hnone : limiter.buckets.lookup (I.toLowercase endpointId) = none
    · exact .inr (by have := mt (And.intro hnone) hroom; omega)
    · exact .inl (Option.isSome_iff_ne_none.mpr hnone)

/-- The bucket a call charges, after the refills that are due. -/
def charged (limiter : UnpairedRateLimiter) (key : String) (now : Nat) : Bucket :=
  limiter.refilled ((limiter.buckets.lookup key).getD ⟨limiter.burst, now⟩) now

theorem charge_eq : limiter.charge key now =
    if (limiter.charged key now).tokens = 0 then
      (false, limiter.setBucket key (limiter.charged key now))
    else (true, limiter.setBucket key
      { limiter.charged key now with tokens := (limiter.charged key now).tokens - 1 }) := rfl

/-- The bucket of this id had a token, after the refills that were due, and has one less now. -/
def TakesToken (I : Iroh Id) (limiter limiter' : UnpairedRateLimiter) (endpointId : String)
    (now : Nat) : Prop :=
  0 < (limiter.charged (I.toLowercase endpointId) now).tokens ∧
    limiter'.buckets.lookup (I.toLowercase endpointId) =
      some { limiter.charged (I.toLowercase endpointId) now with
        tokens := (limiter.charged (I.toLowercase endpointId) now).tokens - 1 }

theorem lookup_prune_of_none (h : limiter.buckets.lookup key = none) :
    (limiter.prune now).buckets.lookup key = none := by
  rw [List.lookup_eq_none_iff] at h ⊢
  intro entry hentry
  exact h entry (List.mem_of_mem_filter hentry)

/-- Pruning makes no difference to a peer without a bucket. -/
theorem charged_prune_of_none (h : limiter.buckets.lookup key = none) :
    (limiter.prune now).charged key now = limiter.charged key now := by
  rw [charged, charged, lookup_prune_of_none h, h]
  rfl

theorem charge_takesToken (h : (limiter.charge key now).1 = true) :
    0 < (limiter.charged key now).tokens ∧ (limiter.charge key now).2.buckets.lookup key =
      some { limiter.charged key now with tokens := (limiter.charged key now).tokens - 1 } := by
  rw [charge_eq] at h ⊢
  by_cases hempty : (limiter.charged key now).tokens = 0
  · rw [if_pos hempty] at h
    cases h
  · rw [if_neg hempty, lookup_setBucket, if_pos rfl]
    exact ⟨Nat.pos_of_ne_zero hempty, rfl⟩

/-- A call that lets its peer through takes a token of the peer's bucket. -/
theorem allow_takesToken (I : Iroh Id) (limiter : UnpairedRateLimiter) (endpointId : String)
    (now : Nat) (h : (limiter.allow I endpointId now).1 = true) :
    TakesToken I limiter (limiter.allow I endpointId now).2 endpointId now := by
  rcases allow_cases I limiter endpointId now with ⟨-, heq⟩ | ⟨base, hbase, -, heq⟩
  · rw [heq] at h
    cases h
  · rw [heq] at h ⊢
    have htaken := charge_takesToken h
    rcases hbase with rfl | ⟨hnone, rfl⟩
    · exact htaken
    · rwa [charged_prune_of_none hnone] at htaken

theorem refills_eq (hinterval : 1 ≤ limiter.refillIntervalMs) :
    limiter.refills bucket now = TokenBucket.due limiter.width (2 ^ 32) bucket.lastRefill now := by
  have hmax : max limiter.refillIntervalMs 1 = limiter.refillIntervalMs := by omega
  rw [refills, TokenBucket.due, width, hmax, Nat.div_div_eq_div_mul, Nat.mul_comm]

theorem refilled_eq (hinterval : 1 ≤ limiter.refillIntervalMs) (hburst : limiter.burst < 2 ^ 32)
    (htokens : bucket.tokens ≤ limiter.burst) :
    limiter.refilled bucket now =
      ⟨min (bucket.tokens + TokenBucket.due limiter.width (2 ^ 32) bucket.lastRefill now)
          limiter.burst,
        bucket.lastRefill +
          limiter.width * TokenBucket.due limiter.width (2 ^ 32) bucket.lastRefill now⟩ := by
  rw [← refills_eq hinterval]
  unfold refilled
  dsimp only
  split
  · rw [Bucket.mk.injEq]
    refine ⟨?_, rfl⟩
    rw [saturatingAdd]
    omega
  · rename_i hnone
    have hzero : limiter.refills bucket now = 0 := by omega
    rw [hzero, Nat.mul_zero, Nat.add_zero, Nat.add_zero, Nat.min_eq_left htokens]

end Call

/-! ### What every state has -/

/-- The map has one entry a key and room for no more than its cap, and no bucket holds more than the
burst or was refilled in the future. -/
structure Sound (limiter : UnpairedRateLimiter) (clock : Nat) : Prop where
  keys : (limiter.buckets.map Prod.fst).Nodup
  room : limiter.buckets.length ≤ maxTrackedPeers
  tokens : ∀ entry ∈ limiter.buckets, entry.2.tokens ≤ limiter.burst
  past : ∀ entry ∈ limiter.buckets, entry.2.lastRefill ≤ clock

section Sound

variable {limiter : UnpairedRateLimiter} {key : String} {bucket : Bucket} {clock now : Nat}

theorem Sound.later (h : Sound limiter clock) (hnow : clock ≤ now) : Sound limiter now :=
  { h with past := fun entry hentry => Nat.le_trans (h.past entry hentry) hnow }

theorem Sound.pruned (h : Sound limiter clock) : Sound (limiter.prune now) clock where
  keys := h.keys.sublist (List.filter_sublist.map _)
  room := Nat.le_trans (List.length_filter_le _ _) h.room
  tokens := fun entry hentry => h.tokens entry (List.mem_filter.mp hentry).1
  past := fun entry hentry => h.past entry (List.mem_filter.mp hentry).1

theorem mem_of_lookup (h : limiter.buckets.lookup key = some bucket) :
    (key, bucket) ∈ limiter.buckets := by
  obtain ⟨front, back, hsplit, -⟩ := List.lookup_eq_some_iff.mp h
  rw [hsplit]
  simp

theorem Sound.setBucket (h : Sound limiter clock) (htokens : bucket.tokens ≤ limiter.burst)
    (hpast : bucket.lastRefill ≤ clock)
    (hroom : (limiter.buckets.lookup key).isSome ∨ limiter.buckets.length < maxTrackedPeers) :
    Sound (limiter.setBucket key bucket) clock where
  keys := by
    rw [keys_setBucket]
    split
    · exact h.keys
    · rename_i hnone
      rw [Option.not_isSome_iff_eq_none, List.lookup_eq_none_iff] at hnone
      refine List.nodup_append.mpr ⟨h.keys, List.nodup_singleton key, ?_⟩
      intro other hother other' hkey heq
      rw [List.mem_singleton] at hkey
      obtain ⟨entry, hentry, rfl⟩ := List.mem_map.mp hother
      have hne := hnone entry hentry
      simp [heq, hkey] at hne
  room := by
    have hlength := congrArg List.length (keys_setBucket limiter key bucket)
    have hold := h.room
    split at hlength <;> simp only [List.length_map, List.length_append, List.length_singleton]
      at hlength
    · omega
    · rename_i hnone
      have hlt := hroom.resolve_left hnone
      omega
  tokens := by
    intro entry hentry
    rw [setBucket_burst]
    rcases mem_setBucket hentry with rfl | hentry
    · exact htokens
    · exact h.tokens entry hentry
  past := by
    intro entry hentry
    rcases mem_setBucket hentry with rfl | hentry
    · exact hpast
    · exact h.past entry hentry

theorem Sound.found (h : Sound limiter now) (key : String) :
    ((limiter.buckets.lookup key).getD ⟨limiter.burst, now⟩).tokens ≤ limiter.burst ∧
      ((limiter.buckets.lookup key).getD ⟨limiter.burst, now⟩).lastRefill ≤ now := by
  cases hfound : limiter.buckets.lookup key with
  | none => exact ⟨Nat.le_refl _, Nat.le_refl _⟩
  | some bucket =>
    have hmem := mem_of_lookup hfound
    exact ⟨h.tokens _ hmem, h.past _ hmem⟩

theorem Sound.charged (h : Sound limiter now) (key : String)
    (hinterval : 1 ≤ limiter.refillIntervalMs)
    (hburst : limiter.burst < 2 ^ 32) :
    (limiter.charged key now).tokens ≤ limiter.burst ∧
      (limiter.charged key now).lastRefill ≤ now := by
  obtain ⟨htokens, hpast⟩ := h.found key
  rw [UnpairedRateLimiter.charged, refilled_eq hinterval hburst htokens]
  refine ⟨Nat.min_le_right _ _, ?_⟩
  have hdue := TokenBucket.due_le limiter.width (2 ^ 32)
    ((limiter.buckets.lookup key).getD ⟨limiter.burst, now⟩).lastRefill now
  dsimp only
  omega

theorem Sound.charge (h : Sound limiter now) (hinterval : 1 ≤ limiter.refillIntervalMs)
    (hburst : limiter.burst < 2 ^ 32)
    (hroom : (limiter.buckets.lookup key).isSome ∨ limiter.buckets.length < maxTrackedPeers) :
    Sound (limiter.charge key now).2 now := by
  obtain ⟨htokens, hpast⟩ := h.charged key hinterval hburst
  rw [charge_eq]
  split
  · exact h.setBucket htokens hpast hroom
  · exact h.setBucket (Nat.le_trans (Nat.sub_le _ _) htokens) hpast hroom

theorem Sound.allow (I : Iroh Id) (endpointId : String) (h : Sound limiter clock)
    (hnow : clock ≤ now) (hinterval : 1 ≤ limiter.refillIntervalMs)
    (hburst : limiter.burst < 2 ^ 32) : Sound (limiter.allow I endpointId now).2 now := by
  rcases allow_cases I limiter endpointId now with ⟨-, hrefused⟩ | ⟨base, hbase, hroom, hcharged⟩
  · rw [hrefused]
    exact (h.later hnow).pruned
  · rw [hcharged]
    rcases hbase with rfl | ⟨-, rfl⟩
    · exact (h.later hnow).charge hinterval hburst hroom
    · exact (h.later hnow).pruned.charge hinterval hburst hroom

theorem charge_config : (limiter.charge key now).2.burst = limiter.burst ∧
    (limiter.charge key now).2.refillIntervalMs = limiter.refillIntervalMs := by
  rw [charge_eq]
  split <;> simp

theorem allow_config (I : Iroh Id) (limiter : UnpairedRateLimiter) (endpointId : String) (now : Nat) :
    (limiter.allow I endpointId now).2.burst = limiter.burst ∧
      (limiter.allow I endpointId now).2.refillIntervalMs = limiter.refillIntervalMs := by
  rcases allow_cases I limiter endpointId now with ⟨-, hrefused⟩ | ⟨base, hbase, -, hcharged⟩
  · rw [hrefused]
    exact ⟨rfl, rfl⟩
  · rw [hcharged]
    rcases hbase with rfl | ⟨-, rfl⟩ <;> exact charge_config

end Sound

/-! ### The account of a window -/

/-- The account of the window that began at `start` with one peer, at a time not before the last
call: its bucket holds the account, and without a bucket the account is settled. -/
structure Covered (limiter : UnpairedRateLimiter) (key : String) (start spent clock : Nat) : Prop
    where
  dropped : limiter.buckets.lookup key = none →
    limiter.width * spent ≤ limiter.width - 1 + (clock - start)
  held : ∀ bucket, limiter.buckets.lookup key = some bucket → spent = 0 ∨
    ∃ opened ≤ clock, TokenBucket.Account limiter.width (2 ^ 32) limiter.burst start spent opened
      bucket.tokens bucket.lastRefill

section Covered

variable {limiter limiter' : UnpairedRateLimiter} {key other : String} {start spent clock now : Nat}

theorem Covered.later (h : Covered limiter key start spent clock) (hnow : clock ≤ now) :
    Covered limiter key start spent now where
  dropped := fun hnone => by have hpaid := h.dropped hnone; omega
  held := fun bucket hbucket => (h.held bucket hbucket).imp_right fun ⟨opened, hopened, haccount⟩ =>
    ⟨opened, Nat.le_trans hopened hnow, haccount⟩

theorem Covered.nothing : Covered limiter key start 0 clock where
  dropped := fun _ => by rw [Nat.mul_zero]; exact Nat.zero_le _
  held := fun _ _ => .inl rfl

theorem width_pos (hinterval : 1 ≤ limiter.refillIntervalMs) : 0 < limiter.width := by
  unfold width
  omega

theorem Covered.pruned (h : Covered limiter key start spent now) (hsound : Sound limiter now)
    (hinterval : 1 ≤ limiter.refillIntervalMs) (hburst : limiter.burst < 2 ^ 32) :
    Covered (limiter.prune now) key start spent now where
  dropped := by
    intro hnone
    rw [lookup_prune hsound.keys] at hnone
    cases hfound : limiter.buckets.lookup key with
    | none => exact h.dropped hfound
    | some bucket =>
      rw [hfound, Option.filter_eq_none_iff] at hnone
      have hfull := hnone bucket rfl
      rw [decide_eq_true_eq, saturatingAdd, refills_eq hinterval] at hfull
      have hle : limiter.burst ≤ bucket.tokens +
          TokenBucket.due limiter.width (2 ^ 32) bucket.lastRefill now := by omega
      rcases h.held bucket hfound with rfl | ⟨opened, hopened, haccount⟩
      · rw [Nat.mul_zero]
        exact Nat.zero_le _
      · exact haccount.full (width_pos hinterval) hopened hle
  held := by
    intro bucket hbucket
    rw [lookup_prune hsound.keys, Option.filter_eq_some_iff] at hbucket
    exact h.held bucket hbucket.1

theorem Covered.charged (h : Covered limiter key start spent now) (hsound : Sound limiter now)
    (hstart : start ≤ now) (hinterval : 1 ≤ limiter.refillIntervalMs)
    (hburst : limiter.burst < 2 ^ 32) :
    TokenBucket.Account limiter.width (2 ^ 32) limiter.burst start spent now
      (limiter.charged key now).tokens (limiter.charged key now).lastRefill := by
  have hwidth := width_pos hinterval
  obtain ⟨htokens, hpast⟩ := hsound.found key
  rw [UnpairedRateLimiter.charged, refilled_eq hinterval hburst htokens]
  cases hfound : limiter.buckets.lookup key with
  | none =>
    exact (TokenBucket.Account.reopen (h.dropped hfound) hstart).refill hwidth (Nat.le_refl now)
  | some bucket =>
    rw [hfound] at htokens hpast
    rcases h.held bucket hfound with rfl | ⟨opened, hopened, haccount⟩
    · refine TokenBucket.Account.fresh hwidth (Nat.min_le_right _ _) hstart ?_
        TokenBucket.due_after
      have hdue := TokenBucket.due_le limiter.width (2 ^ 32) bucket.lastRefill now
      change bucket.lastRefill ≤ now at hpast
      change bucket.lastRefill + limiter.width *
        TokenBucket.due limiter.width (2 ^ 32) bucket.lastRefill now ≤ now
      omega
    · exact haccount.refill hwidth hopened

theorem covered_setBucket {bucket : Bucket}
    (h : TokenBucket.Account limiter.width (2 ^ 32) limiter.burst start spent now bucket.tokens
      bucket.lastRefill) : Covered (limiter.setBucket key bucket) key start spent now where
  dropped := fun hnone => by simp [lookup_setBucket] at hnone
  held := by
    intro found hfound
    rw [lookup_setBucket, if_pos rfl] at hfound
    cases hfound
    refine .inr ⟨now, Nat.le_refl now, ?_⟩
    rw [width, setBucket_refillIntervalMs, setBucket_burst]
    exact h

theorem Covered.charge (h : Covered limiter key start spent now) (hsound : Sound limiter now)
    (hstart : start ≤ now) (hinterval : 1 ≤ limiter.refillIntervalMs)
    (hburst : limiter.burst < 2 ^ 32) :
    Covered (limiter.charge key now).2 key start
      (spent + (limiter.charge key now).1.toNat) now := by
  have haccount := h.charged hsound hstart hinterval hburst
  rw [charge_eq]
  split
  · exact covered_setBucket haccount
  · rename_i htokens
    exact covered_setBucket (haccount.spend (Nat.pos_of_ne_zero htokens))

theorem Covered.charge_other (h : Covered limiter key start spent now) (hne : key ≠ other) :
    Covered (limiter.charge other now).2 key start spent now := by
  have hset : ∀ bucket, Covered (limiter.setBucket other bucket) key start spent now := by
    intro bucket
    constructor
    · intro hnone
      rw [lookup_setBucket, if_neg hne] at hnone
      rw [width, setBucket_refillIntervalMs]
      exact h.dropped hnone
    · intro found hfound
      rw [lookup_setBucket, if_neg hne] at hfound
      rw [width, setBucket_refillIntervalMs, setBucket_burst]
      exact h.held found hfound
  rw [charge_eq]
  split <;> exact hset _

/-- One call of `allow`, by any peer. In a window that has not begun nothing is spent. -/
theorem Covered.allow (I : Iroh Id) (endpointId : String)
    (h : Covered limiter key start spent clock) (hsound : Sound limiter clock)
    (hnow : clock ≤ now) (hearly : now < start → spent = 0)
    (hinterval : 1 ≤ limiter.refillIntervalMs) (hburst : limiter.burst < 2 ^ 32) :
    Covered (limiter.allow I endpointId now).2 key start
      (spent + if I.toLowercase endpointId = key ∧ start ≤ now ∧
        (limiter.allow I endpointId now).1 = true then 1 else 0) now := by
  have hcovered := h.later hnow
  have hsound := hsound.later hnow
  rcases allow_cases I limiter endpointId now with ⟨-, hrefused⟩ | ⟨base, hbase, -, hcharged⟩
  · rw [hrefused]
    simpa using hcovered.pruned hsound hinterval hburst
  · have hbase' : Covered base key start spent now ∧ Sound base now ∧
        1 ≤ base.refillIntervalMs ∧ base.burst < 2 ^ 32 := by
      rcases hbase with rfl | ⟨-, rfl⟩
      · exact ⟨hcovered, hsound, hinterval, hburst⟩
      · exact ⟨hcovered.pruned hsound hinterval hburst, hsound.pruned, hinterval, hburst⟩
    obtain ⟨hcovered, hsound, hinterval, hburst⟩ := hbase'
    rw [hcharged]
    by_cases hkey : I.toLowercase endpointId = key
    · subst hkey
      by_cases hstart : start ≤ now
      · have hcharge := hcovered.charge hsound hstart hinterval hburst
        cases hgranted : (base.charge (I.toLowercase endpointId) now).1 with
        | true =>
          rw [hgranted] at hcharge
          simpa [hstart] using hcharge
        | false =>
          rw [hgranted] at hcharge
          simpa using hcharge
      · rw [hearly (by omega), if_neg (fun hcounts => hstart hcounts.2.1)]
        exact Covered.nothing
    · rw [if_neg (fun hcounts => hkey hcounts.1)]
      exact hcovered.charge_other (Ne.symm hkey)

theorem Covered.spent_le {length : Nat} (h : Covered limiter key start spent now)
    (hend : now ≤ start + length) (hinterval : 1 ≤ limiter.refillIntervalMs) :
    spent ≤ limiter.burst + length / limiter.width + 1 := by
  have hwidth := width_pos hinterval
  cases hfound : limiter.buckets.lookup key with
  | none =>
    have hpaid := h.dropped hfound
    exact TokenBucket.spent_le hwidth (by omega)
  | some bucket =>
    rcases h.held bucket hfound with rfl | ⟨opened, hopened, haccount⟩
    · exact Nat.zero_le _
    · exact haccount.spent_le hwidth (Nat.le_trans hopened hend)

end Covered

/-! ### Runs -/

theorem accepted_snoc (key : String) (start stop : Nat) (tr : List (Entry Clocked Call Bool))
    (s : Clocked) (call : Call) (s' : Clocked) (granted : Bool) :
    accepted I key start stop (tr ++ [⟨s, call, s', [granted]⟩]) =
      accepted I key start stop tr + if I.toLowercase call.endpointId = key ∧ start ≤ call.now ∧
        call.now ≤ stop ∧ granted = true then 1 else 0 := by
  rw [accepted, List.countP_append, List.countP_singleton]
  congr 1
  refine if_congr ?_ rfl rfl
  simp [and_assoc]

/-- What holds after every run: the state is sound, each window that has not ended has an account,
and no window let through too much. -/
structure Bounded (I : Iroh Id) (burst refillIntervalMs : Nat) (tr : List (Entry Clocked Call Bool))
    (s : Clocked) : Prop where
  config : s.limiter.burst = burst ∧ s.limiter.refillIntervalMs = refillIntervalMs
  sound : Sound s.limiter s.clock
  early : ∀ key start stop, s.clock < start → accepted I key start stop tr = 0
  covered : ∀ key start stop, s.clock ≤ stop →
    Covered s.limiter key start (accepted I key start stop tr) s.clock
  bound : ∀ key start length, accepted I key start (start + length) tr ≤
    burst + length / (refillIntervalMs * 1000000) + 1

theorem bounded_start (I : Iroh Id) (burst refillIntervalMs : Nat) :
    Bounded I burst refillIntervalMs [] ⟨withConfig burst refillIntervalMs, 0⟩ where
  config := ⟨rfl, rfl⟩
  sound := by constructor <;> simp [withConfig]
  early := fun _ _ _ _ => rfl
  covered := fun _ _ _ _ => Covered.nothing
  bound := fun _ _ _ => Nat.zero_le _

theorem bounded_step {burst refillIntervalMs : Nat} (hinterval : 1 ≤ refillIntervalMs)
    (hburst : burst < 2 ^ 32) {tr : List (Entry Clocked Call Bool)} {s s' : Clocked} {call : Call}
    {out : List Bool} (h : Bounded I burst refillIntervalMs tr s) (hforward : Forward s call)
    (hstep : (limiterMachine I).step s call = some (s', out)) :
    Bounded I burst refillIntervalMs (tr ++ [⟨s, call, s', out⟩]) s' := by
  obtain ⟨rfl, rfl⟩ := h.config
  rw [limiterMachine, Option.some.injEq, Prod.mk.injEq] at hstep
  obtain ⟨rfl, rfl⟩ := hstep
  have hconfig := allow_config I s.limiter call.endpointId call.now
  -- a window that the call falls into has not ended, so its account is kept
  have hcovered : ∀ key start stop, call.now ≤ stop →
      Covered (s.limiter.allow I call.endpointId call.now).2 key start
        (accepted I key start stop (tr ++ [⟨s, call,
          ⟨(s.limiter.allow I call.endpointId call.now).2, call.now⟩,
          [(s.limiter.allow I call.endpointId call.now).1]⟩])) call.now := by
    intro key start stop hstop
    have hopen : s.clock ≤ stop := Nat.le_trans hforward hstop
    have hkept := (h.covered key start stop hopen).allow I call.endpointId h.sound hforward
      (fun hlt => h.early key start stop (Nat.lt_of_le_of_lt hforward hlt)) hinterval hburst
    rw [accepted_snoc]
    simpa only [hstop, true_and] using hkept
  constructor
  · exact hconfig
  · exact h.sound.allow I call.endpointId hforward hinterval hburst
  · intro key start stop hlt
    have hnot : ¬ start ≤ call.now := Nat.not_le_of_lt hlt
    rw [accepted_snoc, h.early key start stop (Nat.lt_of_le_of_lt hforward hlt),
      if_neg (fun hcounts => hnot hcounts.2.1)]
  · exact hcovered
  · intro key start length
    by_cases hend : call.now ≤ start + length
    · have hspent := (hcovered key start (start + length) hend).spent_le hend
        (hconfig.2.symm ▸ hinterval)
      rw [width, hconfig.1, hconfig.2] at hspent
      exact hspent
    · rw [accepted_snoc, if_neg (fun hcounts => hend hcounts.2.2.1)]
      exact h.bound key start length

theorem pruned_full {limiter : UnpairedRateLimiter} {clock now : Nat} (h : Sound limiter clock)
    (hinterval : 1 ≤ limiter.refillIntervalMs) (hburst : limiter.burst < 2 ^ 32)
    {entry : String × Bucket} (hentry : entry ∈ limiter.buckets)
    (hdropped : entry ∉ (limiter.prune now).buckets) :
    (limiter.refilled entry.2 now).tokens = limiter.burst := by
  have hfull : limiter.burst ≤ saturatingAdd entry.2.tokens (limiter.refills entry.2 now) := by
    by_contra hlt
    exact hdropped (List.mem_filter.mpr ⟨hentry, decide_eq_true (by omega)⟩)
  rw [refills_eq hinterval, saturatingAdd] at hfull
  rw [refilled_eq hinterval hburst (h.tokens entry hentry)]
  exact Nat.min_eq_right (by omega)

/-- However many peers call: no peer is let through more often in a window than the burst, the
refills of the window and one, no bucket holds more than the burst, the map stays under its cap, and a
dropped bucket held nothing that a new one does not. -/
theorem accepted_bounded (I : Iroh Id) (burst refillIntervalMs : Nat) (hburst : burst < 2 ^ 32)
    (hinterval : 1 ≤ refillIntervalMs) (tr : List (Entry Clocked Call Bool)) (s : Clocked)
    (hrun : Run (limiterMachine I) Forward ⟨withConfig burst refillIntervalMs, 0⟩ tr s) :
    (∀ endpointId start length, accepted I (I.toLowercase endpointId) start (start + length) tr ≤
      burst + length / (refillIntervalMs * 1000000) + 1) ∧
    (∀ entry ∈ s.limiter.buckets, entry.2.tokens ≤ burst) ∧
    (s.limiter.buckets.map Prod.fst).Nodup ∧ s.limiter.buckets.length ≤ maxTrackedPeers ∧
    ∀ now, ∀ entry ∈ s.limiter.buckets, entry ∉ (s.limiter.prune now).buckets →
      (s.limiter.refilled entry.2 now).tokens = burst := by
  have hbounded : Bounded I burst refillIntervalMs tr s :=
    hrun.invariant (bounded_start I burst refillIntervalMs) (bounded_step hinterval hburst)
  obtain ⟨rfl, rfl⟩ := hbounded.config
  have hsound := hbounded.sound
  exact ⟨fun endpointId => hbounded.bound (I.toLowercase endpointId), hsound.tokens, hsound.keys,
    hsound.room, fun now entry hentry hdropped => pruned_full hsound hinterval hburst hentry hdropped⟩

/-- A burst of three and a refill every two seconds: of five calls two seconds apart at most, four
get through. -/
theorem accepted_bounded_fourOfFive :
    ∃ tr s, Run (limiterMachine Key.iroh) Forward ⟨withConfig 3 2000, 0⟩ tr s ∧
      accepted Key.iroh (Key.iroh.toLowercase Key.bob.hex) 0 (0 + 2000000000) tr = 4 ∧
      accepted Key.iroh (Key.iroh.toLowercase Key.bob.hex) 0 (0 + 2000000000) tr ≤
        3 + 2000000000 / (2000 * 1000000) + 1 := by
  obtain ⟨tr, s, hrun, htest⟩ := Run.of_check (limiterMachine Key.iroh) Forward
    ⟨withConfig 3 2000, 0⟩
    [⟨Key.bob.hex, 0⟩, ⟨Key.bob.hex, 0⟩, ⟨Key.bob.hex, 0⟩, ⟨Key.bob.hex, 1⟩,
      ⟨Key.bob.hex, 2000000000⟩]
    (fun tr _ => decide (accepted Key.iroh (Key.iroh.toLowercase Key.bob.hex) 0 (0 + 2000000000) tr
      = 4)) (by decide +kernel)
  exact ⟨tr, s, hrun, of_decide_eq_true htest,
    (accepted_bounded Key.iroh 3 2000 (by decide) (by decide) tr s hrun).1 Key.bob.hex 0
      2000000000⟩

end DashBeam.Native.UnpairedRateLimiter
