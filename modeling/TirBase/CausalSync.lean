import TirBase.CloudSync

/-! # Parents before children at the Cloud Ledger

A cycle goes on behind a Delta that the ledger rejects or whose bytes cannot be fetched. The children
of that Delta are then sent while it still waits. -/
namespace TirBase.CausalSync
open CloudOutboundQueue TransitionRuns

structure SyncEnvironment where
  answer : DeltaId → Bytes → Except String Unit
  refetch : DeltaId → List Did → Option Bytes

variable (env : SyncEnvironment)

/-- The connection of the cycle keeps a list of what it was sent. -/
def record (sent : List (DeltaId × Bytes)) (deltaId : DeltaId) (bytes : Bytes) :
    Except String Unit × List (DeltaId × Bytes) :=
  (env.answer deltaId bytes, sent ++ [(deltaId, bytes)])

def turn (s : SyncProgress (List (DeltaId × Bytes))) (deltaId : DeltaId) :
    SyncProgress (List (DeltaId × Bytes)) :=
  syncEntry (record env) env.refetch s deltaId

def turns (q : CloudOutboundQueue) (before : List DeltaId) :
    SyncProgress (List (DeltaId × Bytes)) :=
  before.foldl (turn env) ⟨q, [], ⟨0, 0, 0, []⟩⟩

def cycle (q : CloudOutboundQueue) : CloudOutboundQueue :=
  (cloudSyncLoop (record env) env.refetch q []).queue

/-- The Delta leaves the queue when its turn comes: it is marked durable, or its bytes are there and
the ledger acknowledges them. -/
def clears (q : CloudOutboundQueue) (deltaId : DeltaId) : Bool :=
  match q.find deltaId with
  | none => false
  | some e => e.tier2Durable ||
      match e.resolveBytes env.refetch with
      | none => false
      | some bytes => (env.answer deltaId bytes).isOk

/-- Whenever a Delta is sent, none of its parents waits unacknowledged; nothing leaves the queue that
was not acknowledged. -/
structure CausalCycle (q : CloudOutboundQueue) : Prop where
  causal : ∀ before id rest, q.topologicalSortQueue = before ++ id :: rest →
    (turn env (turns env q before) id).conn ≠ (turns env q before).conn →
      ∀ e, (turns env q before).queue.find id = some e → ∀ parent ∈ e.causalParents,
        ∀ e' ∈ (turns env q before).queue.queue, e'.deltaId = parent → e'.tier2Durable = true
  retained : ∀ e ∈ q.queue, e ∉ (cycle env q).queue → ∃ e' ∈ q.queue, e'.deltaId = e.deltaId ∧
    (e'.tier2Durable = true ∨ ∃ bytes, e'.resolveBytes env.refetch = some bytes ∧
      env.answer e'.deltaId bytes = .ok ())

/-- Every waiting parent of a Delta that can be sent is acknowledged when its turn comes. -/
def ParentsAccepted (q : CloudOutboundQueue) : Prop :=
  ∀ id e, q.find id = some e → e.tier2Durable = false → (e.resolveBytes env.refetch).isSome = true →
    ∀ parent ∈ e.causalParents, parent ∈ q.ids → clears env q parent = true

variable {env} {q : CloudOutboundQueue} {deltaId : DeltaId}

theorem clears_eq_true_iff : clears env q deltaId = true ↔
    ∃ e, q.find deltaId = some e ∧ (e.tier2Durable = true ∨
      ∃ bytes, e.resolveBytes env.refetch = some bytes ∧ env.answer deltaId bytes = .ok ()) := by
  unfold clears
  cases hfind : q.find deltaId with
  | none => simp
  | some e =>
    cases hbytes : e.resolveBytes env.refetch with
    | none => simp [hbytes]
    | some bytes =>
      cases hanswer : env.answer deltaId bytes with
      | error reason => simp [hbytes, hanswer, Except.isOk, Except.toBool]
      | ok u => simp [hbytes, hanswer, Except.isOk, Except.toBool]

def without (q : CloudOutboundQueue) (left : DeltaId → Prop) [DecidablePred left] :
    CloudOutboundQueue :=
  ⟨q.queue.filter fun e => ¬left e.deltaId⟩

theorem find_without (left : DeltaId → Prop) [DecidablePred left] :
    (without q left).find deltaId = if left deltaId then none else q.find deltaId := by
  rw [CloudOutboundQueue.find, without, List.find?_filter]
  by_cases hleft : left deltaId
  · rw [if_pos hleft]
    refine List.find?_eq_none.mpr fun e _ => ?_
    by_cases hid : e.deltaId = deltaId <;> simp [hid, hleft]
  · rw [if_neg hleft]
    apply congrFun (congrArg _ _)
    funext e
    by_cases hid : e.deltaId = deltaId <;> simp [hid, hleft]

section Turns
variable {s : SyncProgress (List (DeltaId × Bytes))} {e : QueueEntry}

/-- Something is sent exactly for a Delta that is not marked durable and whose bytes are there. -/
theorem conn_turn_ne_iff (hfind : s.queue.find deltaId = some e) :
    (turn env s deltaId).conn ≠ s.conn ↔
      e.tier2Durable = false ∧ (e.resolveBytes env.refetch).isSome = true := by
  cases htier : e.tier2Durable with
  | true =>
    have hturn : turn env s deltaId = _ := syncEntry_of_durable _ _ hfind htier
    simp [hturn]
  | false =>
    cases hbytes : e.resolveBytes env.refetch with
    | none =>
      have hturn : turn env s deltaId = _ := syncEntry_of_deferred _ _ hfind htier hbytes
      simp [hturn]
    | some bytes =>
      have hturn : turn env s deltaId = _ := syncEntry_of_sent _ _ hfind htier hbytes
      rw [hturn]
      simp only [record]
      cases env.answer deltaId bytes <;> simp

theorem queue_turn (hfind : s.queue.find deltaId = q.find deltaId) :
    (turn env s deltaId).queue =
      if clears env q deltaId = true then s.queue.acknowledge deltaId else s.queue := by
  cases hq : q.find deltaId with
  | none =>
    rw [hq] at hfind
    have hturn : turn env s deltaId = s := by simp only [turn, syncEntry, hfind]
    rw [hturn, if_neg]
    simp [clears, hq]
  | some e =>
    rw [hq] at hfind
    cases htier : e.tier2Durable with
    | true =>
      have hturn : turn env s deltaId = _ := syncEntry_of_durable _ _ hfind htier
      rw [hturn, if_pos]
      simp [clears, hq, htier]
    | false =>
      cases hbytes : e.resolveBytes env.refetch with
      | none =>
        have hturn : turn env s deltaId = _ := syncEntry_of_deferred _ _ hfind htier hbytes
        rw [hturn, if_neg]
        simp [clears, hq, htier, hbytes]
      | some bytes =>
        have hturn : turn env s deltaId = _ := syncEntry_of_sent _ _ hfind htier hbytes
        rw [hturn]
        simp only [record, clears, hq, htier, hbytes, Bool.false_or]
        cases env.answer deltaId bytes with
        | error reason => rw [if_neg (by simp [Except.isOk, Except.toBool])]
        | ok u => rw [if_pos (by simp [Except.isOk, Except.toBool])]

theorem turns_concat (env : SyncEnvironment) (q : CloudOutboundQueue) (before : List DeltaId)
    (id : DeltaId) : turns env q (before ++ [id]) = turn env (turns env q before) id := by
  simp [turns]

/-- After its first turns a cycle has removed those of their Deltas that clear. -/
theorem queue_turns {before : List DeltaId} (hnodup : before.Nodup) :
    (turns env q before).queue = without q fun id => id ∈ before ∧ clears env q id = true := by
  induction before using List.reverseRecOn with
  | nil => simp [turns, without]
  | append_singleton before id ih =>
    obtain ⟨hbefore, -, hdisjoint⟩ := List.nodup_append.mp hnodup
    have hfresh : id ∉ before := fun hmem => hdisjoint id hmem id (List.mem_singleton_self id) rfl
    have hqueue := ih hbefore
    have hfind : (turns env q before).queue.find id = q.find id := by
      rw [hqueue, find_without, if_neg fun h => hfresh h.1]
    rw [turns_concat, queue_turn hfind, hqueue]
    by_cases hclears : clears env q id = true
    · rw [if_pos hclears]
      simp only [without, CloudOutboundQueue.acknowledge, List.filter_filter]
      congr 1
      apply List.filter_congr
      intro e _
      by_cases hid : e.deltaId = id
      · simp [hid, hclears]
      · simp [hid]
    · rw [if_neg hclears]
      simp only [without]
      congr 1
      apply List.filter_congr
      intro e _
      by_cases hid : e.deltaId = id
      · simp [hid, hclears]
      · simp [hid]

end Turns

section Cycle
variable {rank : DeltaId → ℕ}

theorem queue_cycle (h : q.CausallyRanked rank) :
    cycle env q = without q fun id => clears env q id = true := by
  obtain ⟨hnodup, hmem, -⟩ := topologicalSortQueue_spec h
  have hturns : cycle env q = (turns env q q.topologicalSortQueue).queue := rfl
  rw [hturns, queue_turns hnodup]
  simp only [without]
  congr 1
  apply List.filter_congr
  intro e he
  have hqueued : e.deltaId ∈ q.topologicalSortQueue := (hmem _).mpr (mem_ids.mpr ⟨e, he, rfl⟩)
  simp [hqueued]

/-- A cycle over an acyclic queue keeps causal order exactly when the waiting parents of what it can
send are acknowledged. -/
theorem causalCycle_iff (h : q.CausallyRanked rank) :
    CausalCycle env q ↔ ParentsAccepted env q := by
  obtain ⟨hnodup, hmem, hbefore⟩ := topologicalSortQueue_spec h
  have hsplitNodup : ∀ before id rest, q.topologicalSortQueue = before ++ id :: rest →
      before.Nodup ∧ id ∉ before := by
    intro before id rest hsplit
    rw [hsplit] at hnodup
    obtain ⟨hfirst, -, hdisjoint⟩ := List.nodup_append.mp hnodup
    exact ⟨hfirst, fun hid => hdisjoint id hid id List.mem_cons_self rfl⟩
  have hfindNow : ∀ before id rest, q.topologicalSortQueue = before ++ id :: rest →
      (turns env q before).queue.find id = q.find id := by
    intro before id rest hsplit
    obtain ⟨hfirst, hfresh⟩ := hsplitNodup before id rest hsplit
    rw [queue_turns hfirst, find_without, if_neg fun hleft => hfresh hleft.1]
  constructor
  · intro hcycle id e hfind htier hbytes parent hparent hqueued
    obtain ⟨he, hid⟩ := find_eq_some hfind
    obtain ⟨before, rest, hsplit⟩ :=
      List.append_of_mem ((hmem id).mpr (mem_ids.mpr ⟨e, he, hid⟩))
    have hnow := (hfindNow before id rest hsplit).trans hfind
    have hcausal := hcycle.causal before id rest hsplit
      ((conn_turn_ne_iff hnow).mpr ⟨htier, hbytes⟩) e hnow parent hparent
    by_contra hclears
    obtain ⟨p, hp⟩ := exists_find hqueued
    obtain ⟨hpmem, hpid⟩ := find_eq_some hp
    have hwaits : p ∈ (turns env q before).queue.queue := by
      rw [queue_turns (hsplitNodup before id rest hsplit).1]
      refine List.mem_filter.mpr ⟨hpmem, ?_⟩
      simp [hpid, hclears]
    have hdurable := hcausal p hwaits hpid
    exact hclears (clears_eq_true_iff.mpr ⟨p, hp, .inl hdurable⟩)
  · intro haccepted
    refine ⟨fun before id rest hsplit hsent e hnow parent hparent e' he' hid' => ?_,
      fun e he hgone => ?_⟩
    · have hfind := (hfindNow before id rest hsplit).symm.trans hnow
      obtain ⟨htier, hbytes⟩ := (conn_turn_ne_iff hnow).mp hsent
      rw [queue_turns (hsplitNodup before id rest hsplit).1] at he'
      obtain ⟨he', hstays⟩ := List.mem_filter.mp he'
      have hqueued : parent ∈ q.ids := mem_ids.mpr ⟨e', he', hid'⟩
      obtain ⟨hemem, hid⟩ := find_eq_some hfind
      have hturn := hbefore before id rest hsplit e hemem hid parent hparent hqueued
      have hclears := haccepted id e hfind htier hbytes parent hparent hqueued
      simp [hid', hturn, hclears] at hstays
    · rw [queue_cycle h] at hgone
      have hclears : clears env q e.deltaId = true := by
        by_contra hnot
        exact hgone (List.mem_filter.mpr ⟨he, by simpa using hnot⟩)
      obtain ⟨e', hfind, hwhy⟩ := clears_eq_true_iff.mp hclears
      obtain ⟨he', hid⟩ := find_eq_some hfind
      exact ⟨e', he', hid, hid ▸ hwhy⟩

end Cycle

inductive QueueOperation
  | enqueue (entry : QueueEntry)
  | markCompacted (deltaId : DeltaId)
  | addReceiptHolder (deltaId : DeltaId) (holderDid : Did)
  | sync (env : SyncEnvironment)

def step (q : CloudOutboundQueue) : QueueOperation → CloudOutboundQueue
  | .enqueue entry =>
    match q.enqueue entry with
    | .ok q' => q'
    | .error _ => q
  | .markCompacted deltaId => q.markCompacted deltaId
  | .addReceiptHolder deltaId holderDid => q.addReceiptHolder deltaId holderDid
  | .sync env => cycle env q

section Runs
variable {rank : DeltaId → ℕ}

theorem mem_updateFirst {change : QueueEntry → QueueEntry} {es : List QueueEntry} {e : QueueEntry}
    (h : e ∈ updateFirst change deltaId es) : e ∈ es ∨ ∃ e₀ ∈ es, e = change e₀ := by
  induction es with
  | nil => cases h
  | cons first es ih =>
    simp only [updateFirst] at h
    split_ifs at h
    · rcases List.mem_cons.mp h with rfl | h
      · exact .inr ⟨first, List.mem_cons_self, rfl⟩
      · exact .inl (List.mem_cons_of_mem _ h)
    · rcases List.mem_cons.mp h with rfl | h
      · exact .inl List.mem_cons_self
      · rcases ih h with h | ⟨e₀, h₀, rfl⟩
        · exact .inl (List.mem_cons_of_mem _ h)
        · exact .inr ⟨e₀, List.mem_cons_of_mem _ h₀, rfl⟩

theorem causallyRanked_updateFirst {change : QueueEntry → QueueEntry}
    (hchange : ∀ e, (change e).deltaId = e.deltaId ∧ (change e).causalParents = e.causalParents)
    (h : q.CausallyRanked rank) :
    (⟨updateFirst change deltaId q.queue⟩ : CloudOutboundQueue).CausallyRanked rank := by
  intro e he parent hparent
  rcases mem_updateFirst he with he | ⟨e₀, he₀, rfl⟩
  · exact h e he parent hparent
  · rw [(hchange e₀).2] at hparent
    rw [(hchange e₀).1]
    exact h e₀ he₀ parent hparent

theorem causallyRanked_step {op : QueueOperation}
    (hop : ∀ entry, op = .enqueue entry → ∀ parent ∈ entry.causalParents,
      rank parent < rank entry.deltaId)
    (h : q.CausallyRanked rank) : (step q op).CausallyRanked rank := by
  cases op with
  | enqueue entry =>
    simp only [step, CloudOutboundQueue.enqueue]
    split_ifs
    · exact h
    · intro e he parent hparent
      rcases List.mem_append.mp he with he | he
      · exact h e he parent hparent
      · rw [List.mem_singleton.mp he] at hparent ⊢
        exact hop entry rfl parent hparent
  | markCompacted deltaId => exact causallyRanked_updateFirst (fun e => ⟨rfl, rfl⟩) h
  | addReceiptHolder deltaId holderDid =>
    exact causallyRanked_updateFirst (fun e => ⟨rfl, rfl⟩) h
  | sync env =>
    rw [step, queue_cycle h]
    intro e he
    exact h e (List.mem_filter.mp he).1

theorem causallyRanked_run {ops : List QueueOperation}
    (hops : ∀ entry, .enqueue entry ∈ ops → ∀ parent ∈ entry.causalParents,
      rank parent < rank entry.deltaId)
    (h : q.CausallyRanked rank) : (run step q ops).CausallyRanked rank := by
  induction ops generalizing q with
  | nil => exact h
  | cons op ops ih =>
    refine ih (fun entry hentry => hops entry (List.mem_cons_of_mem _ hentry))
      (causallyRanked_step (fun entry hop => hops entry ?_) h)
    rw [hop]
    exact List.mem_cons_self

/-- In a run over an acyclic queue every cycle keeps causal order, and removes only what is
acknowledged, exactly when each of them has the waiting parents of what it can send acknowledged. -/
theorem causal_cycles_iff (rank : DeltaId → ℕ) {q : CloudOutboundQueue}
    (hq : q.CausallyRanked rank) {ops : List QueueOperation}
    (hops : ∀ entry, .enqueue entry ∈ ops → ∀ parent ∈ entry.causalParents,
      rank parent < rank entry.deltaId) :
    (∀ earlier env rest, ops = earlier ++ .sync env :: rest →
      CausalCycle env (run step q earlier)) ↔
    Guarded step (fun q op => ∀ env, op = .sync env → ParentsAccepted env q) q ops := by
  have hranked : ∀ earlier rest, ops = earlier ++ rest →
      (run step q earlier).CausallyRanked rank := by
    intro earlier rest hsplit
    refine causallyRanked_run (fun entry hentry => hops entry ?_) hq
    rw [hsplit]
    exact List.mem_append_left _ hentry
  rw [guarded_iff_splits]
  constructor
  · rintro hcycles earlier op rest hsplit env rfl
    exact (causalCycle_iff (hranked earlier _ hsplit)).mp (hcycles earlier env rest hsplit)
  · intro haccepted earlier env rest hsplit
    exact (causalCycle_iff (hranked earlier _ hsplit)).mpr
      (haccepted earlier (.sync env) rest hsplit env rfl)

end Runs

section Sample

def sampleQueue : CloudOutboundQueue := ⟨[.new 1 [1] [], .new 2 [2] [1]]⟩

def sampleRejection : SyncEnvironment :=
  ⟨fun id _ => if id = 1 then .error "rejected" else .ok (), fun _ _ => none⟩

/-- The ledger rejects the parent and is sent the child next. -/
theorem child_sent_before_parent : ¬CausalCycle sampleRejection sampleQueue := by
  intro h
  have hcausal := h.causal [1] 2 [] (by decide +kernel) (by decide +kernel) (.new 2 [2] [1])
    (by decide +kernel) 1 List.mem_cons_self (.new 1 [1] []) (by decide +kernel) rfl
  cases hcausal

theorem causal_cycles_iff_sample :
    (∀ earlier env rest,
      ([.enqueue (.new 3 [3] [2]), .sync sampleRejection] : List QueueOperation) =
        earlier ++ .sync env :: rest → CausalCycle env (run step sampleQueue earlier)) ↔
    Guarded step (fun q op => ∀ env, op = .sync env → ParentsAccepted env q) sampleQueue
      [.enqueue (.new 3 [3] [2]), .sync sampleRejection] :=
  causal_cycles_iff BitVec.toNat
    (by
      intro e he parent hparent
      rcases List.mem_cons.mp he with rfl | he
      · cases hparent
      · rw [List.mem_singleton.mp he] at hparent ⊢
        rw [List.mem_singleton.mp hparent]
        decide)
    (by
      intro entry hentry parent hparent
      rcases List.mem_cons.mp hentry with hentry | hentry
      · cases hentry
        rw [List.mem_singleton.mp hparent]
        decide
      · cases List.mem_singleton.mp hentry)

end Sample

end TirBase.CausalSync
