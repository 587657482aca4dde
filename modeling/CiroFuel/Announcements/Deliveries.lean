import CiroFuel.Schemas
import CiroFuel.Snapshot.Ghost

/-!
# Announcements and their deliveries

An announcement is fanned out by a job of the queue, which may be delivered to
several workers and may stop anywhere. For each recipient the worker writes a
delivery row, a notification, and the notification's identifier into the row; the
unique indexes on the rows decide who is notified.

Identifiers are generated by the driver of the database. One that is already in
use does not occur there, and the model takes it for an outage.
-/
namespace CiroFuel.Announcements
open Snapshot

inductive AnnouncementState where
  | queued | completed
deriving DecidableEq, Repr

inductive AnnouncementDeliveryFailureReason where
  | companySuspended | adminDeactivated | noActiveAdmin
deriving DecidableEq, Repr

structure Announcement where
  title : String
  body : String
  sentBy : Id
  targetCompanyIds : List Id
  intendedRecipientCount : ℕ
  deliveredCount : ℕ := 0
  failedCount : ℕ := 0
  state : AnnouncementState := .queued
deriving DecidableEq

structure AnnouncementDocument extends Announcement where
  id : Id

structure AnnouncementDelivery where
  announcementId : Id
  recipientUserId : Option Id
  companyAddressed : Bool
  companyId : Id
  notificationId : Option Id := none
  failureReason : Option AnnouncementDeliveryFailureReason
deriving DecidableEq

/-- A notification of the type for announcements, with its payload. -/
structure Notification where
  companyId : Id
  recipientUserId : Id
  announcementId : Id
  title : String
  body : String
deriving DecidableEq

structure User where
  companyId : Option Id
  role : UserRole
  isActive : Bool
deriving DecidableEq

structure Company where
  status : CompanyStatus
deriving DecidableEq

inductive Key where
  | announcement (id : Id)
  | delivery (id : Id)
  | notification (id : Id)
  | user (id : Id)
  | company (id : Id)
deriving DecidableEq

/-- A delivery row that has been deleted leaves an empty document. -/
@[reducible] def Doc : Key → Type
  | .announcement _ => Announcement
  | .delivery _ => Option AnnouncementDelivery
  | .notification _ => Notification
  | .user _ => User
  | .company _ => Company

inductive Index where
  | recipient (announcementId recipientUserId : Id)
  | company (announcementId companyId : Id)
deriving DecidableEq

/-- The two partial indexes on the rows. -/
def AnnouncementDelivery.entries (d : AnnouncementDelivery) : List Index :=
  (d.recipientUserId.toList.map fun u => Index.recipient d.announcementId u) ++
    if d.companyAddressed then [Index.company d.announcementId d.companyId] else []

instance : Indexed Doc Index where
  entries
    | .delivery _, some d => d.entries
    | _, _ => []

inductive HttpError where
  | queueUnavailable
deriving DecidableEq, Repr

abbrev Action := Tx Doc HttpError

/-! ### Candidates -/

/-- A person, or a company without an administrator, and whether it can be reached. -/
structure AnnouncementCandidate where
  companyId : Id
  recipient : Option Id
  failureReason : Option AnnouncementDeliveryFailureReason
  unaddressed : recipient = none → failureReason = some .noActiveAdmin
deriving DecidableEq

def AnnouncementCandidate.reachable (c : AnnouncementCandidate) : Bool :=
  c.failureReason.isNone && c.recipient.isSome

def ANNOUNCEMENT_RECIPIENT_ROLES : List UserRole := [.fuelCompanyAdmin, .transportCompanyAdmin]

/-- The company has nobody to address. -/
def noActiveAdmin (companyId : Id) : AnnouncementCandidate where
  companyId := companyId
  recipient := none
  failureReason := some .noActiveAdmin
  unaddressed _ := rfl

def candidateFor (companyId recipient : Id)
    (failureReason : Option AnnouncementDeliveryFailureReason) : AnnouncementCandidate where
  companyId := companyId
  recipient := some recipient
  failureReason := failureReason
  unaddressed h := by cases h

/-- The candidates of one company, of whose administrators the activity is known. -/
def candidatesOf (companyId : Id) (status : CompanyStatus) (companyAdmins : List (Id × Bool)) :
    List AnnouncementCandidate :=
  if status ≠ .active then
    (companyAdmins.map fun admin => candidateFor companyId admin.1 (some .companySuspended)) ++
      if companyAdmins.isEmpty then [noActiveAdmin companyId] else []
  else
    (if (companyAdmins.filter fun admin => admin.2).isEmpty then [noActiveAdmin companyId] else []) ++
      companyAdmins.map fun admin =>
        candidateFor companyId admin.1 (if admin.2 then none else some .adminDeactivated)

/-- The targeted companies; no target means all of them. -/
def companiesOf (targetCompanyIds : List Id) (docs : Docs Doc) : List (Id × CompanyStatus) :=
  docs.entries.filterMap fun e =>
    match e with
    | ⟨.company id, c⟩ =>
        if targetCompanyIds.isEmpty || targetCompanyIds.contains id then some (id, c.status) else none
    | _ => none

/-- The administrators of a company, and whether they are active. -/
def adminsOf (docs : Docs Doc) (companyId : Id) : List (Id × Bool) :=
  docs.entries.filterMap fun e =>
    match e with
    | ⟨.user id, u⟩ =>
        if u.companyId = some companyId && ANNOUNCEMENT_RECIPIENT_ROLES.contains u.role then
          some (id, u.isActive)
        else none
    | _ => none

/-! ### Calls -/

inductive Call where
  | createAnnouncement (announcement : Announcement)
  | createDelivery (announcementId : Id) (candidate : AnnouncementCandidate)
  | createNotification (notification : Notification)
  | deleteDelivery (deliveryId : Id)
  | setNotificationId (deliveryId notificationId : Id)
  | complete (announcementId : Id) (delivered failed : ℕ)
  | putUser (id : Id) (user : User)
  | putCompany (id : Id) (company : Company)

namespace Call

@[reducible] def Reply : Call → Type
  | .createAnnouncement _ => Id
  | .createDelivery .. => Id
  | .createNotification _ => Id
  | .deleteDelivery _ => Bool
  | .setNotificationId .. => Bool
  | .complete .. => Bool
  | .putUser .. => Unit
  | .putCompany .. => Unit

end Call

/-- Inserts a document under a generated identifier. -/
def create (key : Id → Key) (document : (id : Id) → Doc (key id)) : Action Id := do
  let id ← Tx.freshId
  let taken ← Tx.find (key id)
  match taken with
  | some _ => Tx.fail .unavailable
  | none => do
      Tx.insert (key id) (document id)
      return id

/-- The row of a candidate. -/
def deliveryOf (announcementId : Id) (c : AnnouncementCandidate) : AnnouncementDelivery where
  announcementId := announcementId
  recipientUserId := c.recipient
  companyAddressed := c.recipient.isNone
  companyId := c.companyId
  failureReason := c.failureReason

def Call.body : (c : Call) → Action c.Reply
  | .createAnnouncement announcement => create .announcement fun _ => announcement
  | .createDelivery announcementId candidate =>
      create .delivery fun _ => some (deliveryOf announcementId candidate)
  | .createNotification notification => create .notification fun _ => notification
  | .deleteDelivery deliveryId =>
      Tx.updateOne (Key.delivery deliveryId)
        (fun d : Option AnnouncementDelivery => d.isSome) fun _ => none
  | .setNotificationId deliveryId notificationId =>
      Tx.updateOne (Key.delivery deliveryId) (fun d : Option AnnouncementDelivery => d.isSome)
        fun d : Option AnnouncementDelivery =>
          d.map fun d => { d with notificationId := some notificationId }
  | .complete announcementId delivered failed =>
      Tx.updateOne (Key.announcement announcementId) (fun _ => true) fun a : Announcement =>
        { a with
          deliveredCount := a.deliveredCount + delivered
          failedCount := a.failedCount + failed
          state := .completed }
  | .putUser id user => Tx.upsert (Key.user id) user fun _ => user
  | .putCompany id company => Tx.upsert (Key.company id) company fun _ => company

abbrev Handler := Prog Doc Call.Reply HttpError

/-! ### The worker -/

/-- `AnnouncementsService.resolveCandidates` -/
def resolveCandidates (targetCompanyIds : List Id) : Handler (List AnnouncementCandidate) := do
  let docs ← Prog.scan
  if (companiesOf targetCompanyIds docs).isEmpty then return []
  else do
    let docs' ← Prog.scan
    return (companiesOf targetCompanyIds docs).flatMap fun company =>
      candidatesOf company.1 company.2 (adminsOf docs' company.1)

/-- A way to find the candidates of an announcement, which may depend on anything the
database holds. -/
structure Resolver where
  resolve : List Id → Handler (List AnnouncementCandidate)
  reads : ∀ targetCompanyIds, (resolve targetCompanyIds).CallFree

theorem resolveCandidates_reads (targetCompanyIds : List Id) :
    (resolveCandidates targetCompanyIds).CallFree := by
  apply Prog.calls_scan.bind
  intro docs
  split_ifs
  · trivial
  · exact Prog.calls_scan.bind fun _ => trivial

/-- The one that the service has. -/
def Resolver.service : Resolver := ⟨resolveCandidates, resolveCandidates_reads⟩

inductive Outcome where
  | delivered | failed | skipped
deriving DecidableEq, Repr

/-- The `catch` around the writes for one recipient. -/
def caught (error : Failure HttpError) : Handler Outcome :=
  if error = .duplicateKey then return .skipped else .fail error

/-- `AnnouncementFanoutProcessor.deliverTo` -/
def deliverTo (announcement : AnnouncementDocument) (candidate : AnnouncementCandidate) :
    Handler Outcome := do
  let delivery ← Prog.attempt (.createDelivery announcement.id candidate)
  match delivery with
  | .error error => caught error
  | .ok deliveryId =>
      match candidate.failureReason, candidate.recipient with
      | none, some recipient => do
          let notification ← Prog.attempt (.createNotification
            { companyId := candidate.companyId
              recipientUserId := recipient
              announcementId := announcement.id
              title := announcement.title
              body := announcement.body })
          match notification with
          | .error notificationError => do
              let _ ← Prog.attempt (.deleteDelivery deliveryId)
              caught notificationError
          | .ok notificationId => do
              let updated ← Prog.attempt (.setNotificationId deliveryId notificationId)
              match updated with
              | .error error => caught error
              | .ok _ => return .delivered
      | _, _ => return .failed

/-- The loop over the candidates and the update that closes it. -/
def deliverAll (announcement : AnnouncementDocument) :
    List AnnouncementCandidate → ℕ → ℕ → Handler Unit
  | [], delivered, failed => do
      let _ ← Prog.perform (.complete announcement.id delivered failed)
      return ()
  | candidate :: candidates, delivered, failed => do
      let outcome ← deliverTo announcement candidate
      match outcome with
      | .delivered => deliverAll announcement candidates (delivered + 1) failed
      | .failed => deliverAll announcement candidates delivered (failed + 1)
      | .skipped => deliverAll announcement candidates delivered failed

inductive Answer where
  | created (announcementId : Id) (intendedRecipientCount : ℕ)
  | missing
  | fannedOut (announcementId : Id) (candidates : List AnnouncementCandidate)
  | stored

/-- `AnnouncementFanoutProcessor.fanOut`. The job returns nothing; the candidates it has
gone through are kept for statements about it. -/
def fanOut (resolver : Resolver) (announcementId : Id) : Handler Answer := do
  let found : Option Announcement ← Prog.find (Key.announcement announcementId)
  match found with
  | none => return .missing
  | some announcement => do
      let candidates ← resolver.resolve announcement.targetCompanyIds
      deliverAll { announcement with id := announcementId } candidates 0 0
      return .fannedOut announcementId candidates

/-- `AnnouncementsService.create`; the last step enqueues the job. -/
def createAnnouncement (title body : String) (targetCompanyIds : List Id) (sentBy : Id) :
    Handler Answer := do
  let candidates ← resolveCandidates targetCompanyIds
  let recipients := candidates.filter fun c => c.reachable
  let id ← Prog.perform (.createAnnouncement
    { title := title
      body := body
      sentBy := sentBy
      targetCompanyIds := targetCompanyIds
      intendedRecipientCount := recipients.length })
  let enqueued ← Prog.effect
  if enqueued then return .created id recipients.length else Prog.throw .queueUnavailable

/-- Accounts and companies change as the rest of the platform likes. -/
inductive Request where
  | create (title body : String) (targetCompanyIds : List Id) (sentBy : Id)
  | fanOut (resolver : Resolver) (announcementId : Id)
  | putUser (id : Id) (user : User)
  | putCompany (id : Id) (company : Company)

def handle : Request → Handler Answer
  | .create title body targetCompanyIds sentBy => createAnnouncement title body targetCompanyIds sentBy
  | .fanOut resolver announcementId => fanOut resolver announcementId
  | .putUser id user => do
      Prog.perform (Call.putUser id user)
      return .stored
  | .putCompany id company => do
      Prog.perform (Call.putCompany id company)
      return .stored

def machine : Machine Doc Call.Reply HttpError Request Answer where
  body := Call.body
  isolated _ := false
  handle := handle
  admits _ _ _ := true

end CiroFuel.Announcements
