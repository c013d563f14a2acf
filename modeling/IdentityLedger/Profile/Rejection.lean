import IdentityLedger.Profile.Vocabulary

/-!
# Why a command is rejected

Every way a profile refuses a command is a cause of its own, with the domain error
it is reported as. Lost races and failed storage are not domain errors.
-/
namespace IdentityLedger

inductive DomainError where
  | validation (reason : String)
  | invariantViolation (reason : String)
  | invalidId (reason : String)
  | notFound
  deriving DecidableEq

def DomainError.message : DomainError → String
  | .validation reason => "validation failed: " ++ reason
  | .invariantViolation reason => "invariant violated: " ++ reason
  | .invalidId reason => "invalid identifier: " ++ reason
  | .notFound => "not found"

inductive Rejection where
  | otherProfile
  | unknownProfile
  | retiredProfile
  | alreadyExists
  | alreadyMinted
  | notMinted
  | alreadyActive
  | pending (reasons : List PendingReason)
  | barred (reason : DeactivationReason)
  | alreadyDeactivated (reason : DeactivationReason)
  | alreadyPendingGpo
  | notPendingGpo
  | alreadyPendingReview
  | alreadyRejected
  | alreadyPendingInPerson
  | notUnderReview
  | notPendingInPerson
  | notActive
  | supersedesItself
  | stillActive
  deriving DecidableEq

def Rejection.error : Rejection → DomainError
  | otherProfile => .invariantViolation "profile_id mismatch"
  | unknownProfile => .notFound
  | retiredProfile => .validation "profile is retired"
  | alreadyExists => .validation "profile already exists"
  | alreadyMinted => .validation "profile may only be minted once"
  | notMinted => .validation "profile must be minted before activation"
  | alreadyActive => .validation "profile is already active"
  | pending reasons =>
    .validation ("cannot activate profile with pending reasons: " ++
      ", ".intercalate (reasons.map PendingReason.name))
  | barred reason =>
    .validation ("cannot activate profile with deactivation reason: " ++ reason.name)
  | alreadyDeactivated reason => .validation ("profile is already deactivated: " ++ reason.name)
  | alreadyPendingGpo => .validation "profile is already pending gpo verification"
  | notPendingGpo => .validation "profile is not pending gpo verification"
  | alreadyPendingReview => .validation "profile is already pending fraud review"
  | alreadyRejected => .validation "profile was already rejected for fraud"
  | alreadyPendingInPerson => .validation "profile is already pending in-person verification"
  | notUnderReview => .validation "profile has no fraud review to pass"
  | notPendingInPerson => .validation "profile is not pending in-person verification"
  | notActive => .validation "profile is not active"
  | supersedesItself => .invariantViolation "a profile cannot supersede itself"
  | stillActive => .validation "deactivate the profile before retiring it"

end IdentityLedger
