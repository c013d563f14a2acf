import IdentityLedger.Calendar.Timestamp

/-!
# The words of identity verification

How strongly an identity was verified, why a profile stopped being active, and
the holds that keep one from becoming active.
-/
namespace IdentityLedger

inductive IdvLevel where
  | legacyUnsupervised
  | legacyInPerson
  | unsupervisedWithSelfie
  | inPerson
  deriving DecidableEq

namespace IdvLevel

def all : List IdvLevel := [legacyUnsupervised, legacyInPerson, unsupervisedWithSelfie, inPerson]

def name : IdvLevel → String
  | legacyUnsupervised => "legacy_unsupervised"
  | legacyInPerson => "legacy_in_person"
  | unsupervisedWithSelfie => "unsupervised_with_selfie"
  | inPerson => "in_person"

def ofName? (name : String) : Option IdvLevel := all.find? fun level => level.name == name

def facialMatch : IdvLevel → Bool
  | unsupervisedWithSelfie | inPerson => true
  | legacyUnsupervised | legacyInPerson => false

theorem ofName?_name (level : IdvLevel) : ofName? level.name = some level := by
  cases level <;> decide

end IdvLevel

inductive DeactivationReason where
  | passwordReset
  | encryptionError
  | verificationCancelled
  deriving DecidableEq

namespace DeactivationReason

def all : List DeactivationReason := [passwordReset, encryptionError, verificationCancelled]

def name : DeactivationReason → String
  | passwordReset => "password_reset"
  | encryptionError => "encryption_error"
  | verificationCancelled => "verification_cancelled"

def ofName? (name : String) : Option DeactivationReason := all.find? fun reason => reason.name == name

theorem ofName?_name (reason : DeactivationReason) : ofName? reason.name = some reason := by
  cases reason <;> decide

end DeactivationReason

/-- What keeps a profile from being activated. A fraud check is pending during review and
stays so after a rejection. -/
inductive PendingReason where
  | gpoVerification
  | fraudCheck
  | inPersonVerification
  deriving DecidableEq

def PendingReason.name : PendingReason → String
  | gpoVerification => "gpo_verification_pending"
  | fraudCheck => "fraud_check_pending"
  | inPersonVerification => "in_person_verification_pending"

/-- The holds on a profile, each with the time it was placed. -/
structure Holds where
  gpo : Option Timestamp
  fraudReview : Option Timestamp
  fraudRejection : Option Timestamp
  inPerson : Option Timestamp
  deriving DecidableEq

namespace Holds

def none : Holds := ⟨.none, .none, .none, .none⟩

/-- The reasons the holds amount to, in a fixed order. -/
def reasons (h : Holds) : List PendingReason :=
  (if h.gpo.isSome then [.gpoVerification] else []) ++
    (if h.fraudReview.isSome || h.fraudRejection.isSome then [.fraudCheck] else []) ++
    (if h.inPerson.isSome then [.inPersonVerification] else [])

end Holds

end IdentityLedger
