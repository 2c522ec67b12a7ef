import TirBase.CrdtEngine

/-! # The Cloud Ledger

The ledger of a process runs the merge pipeline of a device on a database in memory. A Delta that
was merged or quarantined counts as committed and is not processed again. -/
namespace TirBase

structure RejectionRecord where
  deltaId : String
  reason : String
  deriving DecidableEq

inductive ReceiveOutcome
  | committed
  | alreadyCommitted
  | rejected (reason : String)
  deriving DecidableEq

structure CloudLedger where
  engine : CrdtEngine
  committed : List DeltaId
  rejectionLog : List RejectionRecord
  deriving DecidableEq

namespace CloudLedger

/-- `new_in_memory`; the public key is the one that the seed derives. -/
def newInMemory (secretKey publicKey : KeyBytes) (authorDid : Did)
    (schemaHash : SchemaIdentifierHash) : CloudLedger :=
  ⟨.new secretKey publicKey authorDid schemaHash .empty, [], []⟩

variable (lib : EngineLibraries)

def receiveDelta (l : CloudLedger) (δ : Delta) (now : ℤ) (fault : DagFault) :
    Except TirBaseError ReceiveOutcome × CloudLedger :=
  if δ.id ∈ l.committed then (.ok .alreadyCommitted, l)
  else
    let applied := l.engine.apply lib .native δ now fault
    let l := { l with engine := applied.2 }
    match applied.1 with
    | .error e => (.error e, l)
    | .ok (.merged _) => (.ok .committed, { l with committed := l.committed ++ [δ.id] })
    | .ok (.quarantined _) => (.ok .committed, { l with committed := l.committed ++ [δ.id] })
    | .ok (.rejected reason) =>
      (.ok (.rejected reason), { l with
        rejectionLog := l.rejectionLog ++ [⟨δ.id.toHex, reason⟩] })

def addKnownSchema (l : CloudLedger) (hash : SchemaIdentifierHash) : CloudLedger :=
  { l with engine := l.engine.addKnownSchema hash }

variable {lib} {l : CloudLedger} {δ : Delta}

theorem receiveDelta_of_committed (h : δ.id ∈ l.committed) (now : ℤ) (fault : DagFault) :
    l.receiveDelta lib δ now fault = (.ok .alreadyCommitted, l) := if_pos h

/-- A Delta behind the gate whose payload merges is merged. -/
theorem receiveDelta_of_pass {doc : Automerge.Document} (hnew : δ.id ∉ l.committed)
    (hgate : l.engine.gate lib δ = .pass false) (hmerge : l.engine.mergePayload lib δ = some doc)
    (now : ℤ) : l.receiveDelta lib δ now none =
      (.ok .committed, { l with
        engine := CrdtEngine.mergedEngine .native lib l.engine δ false doc
        committed := l.committed ++ [δ.id] }) := by
  rcases CrdtEngine.apply_of_pass hgate hmerge .native now none with
    ⟨err, hfault, -, -⟩ | happly
  · cases hfault
  · simp only [receiveDelta, if_neg hnew, happly]

/-- A Delta under an unknown schema is committed as well. -/
theorem receiveDelta_of_quarantine {reason : QuarantineReason} (hnew : δ.id ∉ l.committed)
    (hgate : l.engine.gate lib δ = .quarantine reason) (now : ℤ) (fault : DagFault) :
    l.receiveDelta lib δ now fault =
      (.ok .committed, { l with committed := l.committed ++ [δ.id] }) := by
  simp only [receiveDelta, if_neg hnew, CrdtEngine.apply, hgate]

/-- An engine without definitions knows nothing of a schema it was not started with. -/
theorem gate_of_unknown {e : CrdtEngine} (hrevoked : δ.authorDid ∉ e.revokedDids)
    (hunknown : δ.schemaHash ∉ e.knownSchemas) (hdefinitions : e.schemaDefinitions = []) :
    e.gate lib δ = .quarantine .unknownSchemaHash := by
  have hclass : e.classifyIncomingSchema δ.schemaHash = .unknown := by
    simp [CrdtEngine.classifyIncomingSchema, hunknown, hdefinitions]
  simp only [CrdtEngine.gate, if_neg hrevoked, hclass]

end CloudLedger

end TirBase
