import TirBase.CrdtEngine
import TirBase.RevocationVotes

/-! # Revocations in different orders

A revoked manager's signatures are not counted any more, so who is revoked may depend on the order
in which the messages come. -/
namespace TirBase.RevocationOrders
open CrdtEngine RevocationVotes ThresholdVotes TransitionRuns

def validSigners (lib : IdentityLibraries) (deltas : List RevocationDelta) (targetDid : Did) :
    Finset Did := supporters (deltas.map (ballot lib)) targetDid

/-- The messages hold enough valid signatures to revoke the target. -/
def Revocable (lib : IdentityLibraries) (m : ℕ) (deltas : List RevocationDelta) (targetDid : Did) :
    Prop := max m 1 ≤ (validSigners lib deltas targetDid).card

instance (lib : IdentityLibraries) (m : ℕ) (deltas : List RevocationDelta) (targetDid : Did) :
    Decidable (Revocable lib m deltas targetDid) := inferInstanceAs (Decidable (_ ≤ _))

/-- The valid signers that cannot be revoked themselves, the target included. -/
def safeSigners (lib : IdentityLibraries) (m : ℕ) (deltas : List RevocationDelta)
    (targetDid : Did) : Finset Did :=
  (validSigners lib deltas targetDid).filter fun did =>
    did = targetDid ∨ ¬Revocable lib m deltas did

variable {lib : IdentityLibraries} {m : ℕ}

theorem revoked_iff_fallen (n : ℕ) (msgs : List Receipt) (did : Did) :
    did ∈ (run (step lib) (RevocationSubsystem.new m n) msgs).revokedDids ↔
      did ∈ (run (receive (max m 1)) .start
        ((msgs.map Receipt.delta).map (ballot lib))).fallen := by
  rw [List.map_map]
  exact (run_counts (counts_new lib m n) msgs).revoked did

/-- Two devices that receive the same messages in any two orders end with the same revoked DIDs
exactly when every DID that the messages can revoke has enough valid signers that they cannot
revoke. -/
theorem orders_agree_iff_safe (lib : IdentityLibraries) (m n n' : ℕ)
    (deltas : List RevocationDelta) :
    (∀ msgs msgs' : List Receipt, (msgs.map Receipt.delta).Perm deltas →
      (msgs'.map Receipt.delta).Perm deltas → ∀ did,
        did ∈ (run (step lib) (RevocationSubsystem.new m n) msgs).revokedDids ↔
          did ∈ (run (step lib) (RevocationSubsystem.new m n') msgs').revokedDids) ↔
    ∀ did, Revocable lib m deltas did → max m 1 ≤ (safeSigners lib m deltas did).card := by
  have hm : 1 ≤ max m 1 := le_max_right m 1
  have hsafe : ∀ did, safeSigners lib m deltas did =
      steadfast (max m 1) (deltas.map (ballot lib)) did := fun did => rfl
  have hcan : ∀ did, Revocable lib m deltas did ↔
      CanFall (max m 1) (deltas.map (ballot lib)) did := fun did => Iff.rfl
  simp only [revoked_iff_fallen, hsafe, hcan]
  rw [← orders_agree_iff hm (ballot lib) deltas]
  constructor
  · intro hagree deltas₁ deltas₂ h₁ h₂ did
    have hreceipts : ∀ ds : List RevocationDelta,
        (ds.map fun δ => (⟨δ, [], 0⟩ : Receipt)).map Receipt.delta = ds := by
      intro ds
      rw [List.map_map]
      exact List.map_id ds
    have hboth := hagree (deltas₁.map fun δ => ⟨δ, [], 0⟩) (deltas₂.map fun δ => ⟨δ, [], 0⟩)
    rw [hreceipts, hreceipts] at hboth
    exact hboth h₁ h₂ did
  · intro hagree msgs msgs' h h' did
    exact hagree _ _ h h' did

/-- Two managers that revoke each other: the one whose message comes first stays. -/
theorem mutual_revocations_disagree :
    let lib := (sampleLibraries []).toIdentityLibraries
    let forth : Receipt := ⟨⟨sampleDid₂, [⟨sampleDid₁, List.replicate 64 0⟩], 1⟩, [], 5⟩
    let back : Receipt := ⟨⟨sampleDid₁, [⟨sampleDid₂, List.replicate 64 0⟩], 1⟩, [], 5⟩
    ([forth, back].map Receipt.delta).Perm ([back, forth].map Receipt.delta) ∧
      (run (step lib) (RevocationSubsystem.new 1 2) [forth, back]).revokedDids = [sampleDid₂] ∧
      (run (step lib) (RevocationSubsystem.new 1 2) [back, forth]).revokedDids = [sampleDid₁] := by
  refine ⟨List.Perm.swap _ _ _, ?_, ?_⟩ <;> decide +kernel

end TirBase.RevocationOrders
