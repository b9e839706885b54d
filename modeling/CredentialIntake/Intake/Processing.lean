import CredentialIntake.Intake.Plan

/-!
# Processing requests

A request is planned and then carried out. Everything left out is reported in
the course of planning, and a request that is given up, whether by its plan or
because a file could not be written, is reported once.
-/

namespace CredentialIntake.Intake

/-- Takes up the plan of a request: what was left out is reported. -/
def begin (store : Store) (plan : Plan) : Store :=
  store.report (plan.skipped.map .credentialSkipped)

/-- Reports that a request was given up. -/
def abort (store : Store) (ad : ClassAd) (error : IntakeError) : Store :=
  store.report [.requestAborted (ad.get? ClassAd.clientName) error]

/-- Processes one request. -/
def process (factory : Factory) (store : Store) (ad : ClassAd) :
    Except IntakeError Report × Store :=
  let plan := Plan.ofRequest factory store.directoryOf ad
  let store := begin store plan
  match plan.decision with
  | .error error => (.error error, abort store ad error)
  | .ok (report, writes) =>
    match store.writeAll writes with
    | (.ok (), store) => (.ok report, store)
    | (.error error, store) => (.error error, abort store ad error)

end CredentialIntake.Intake
