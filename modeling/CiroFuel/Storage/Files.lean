import CiroFuel.Storage.Tokens
import CiroFuel.Tracking

/-!
# Files

The bytes of an upload are written first and its record second, and the process may stop
after either, or in the middle of the bytes. A file is read in two requests: the first,
under the scope of its user, answers with a token, and the second, under no scope at all,
answers the token with the bytes.
-/
namespace CiroFuel.Storage
open Encoding.Paths Numerals Query

inductive FilePurpose where
  | commercialRegister | profilePicture | paymentEvidence | supplierInvoice
deriving DecidableEq, Repr

structure FileRecord where
  id : Id
  companyId : Id
  ownerUserId : Option Id
  purpose : FilePurpose
  storagePath : List Char
  mimeType : String
  sizeBytes : ℕ
  originalName : List Char

/-- The fields of a record that filters name. -/
def FileRecord.document (f : FileRecord) : Document :=
  [("_id", .objectId f.id), ("companyId", .objectId f.companyId)]

/-- A call of `store`, by whom it is made and with the name it draws. -/
structure Upload where
  actor : RequestScope
  companyId : Id
  ownerUserId : Option Id := none
  purpose : FilePurpose
  buffer : List UInt8
  mimeType : String
  originalName : List Char
  uuid : Uuid

def Upload.key (u : Upload) : List Char := storageKey u.companyId u.uuid u.originalName

/-- What the record is saved under: a user with a company stores for that company alone. -/
def Upload.company (u : Upload) : Except String Id := do
  match (← resolveCompanyId u.actor) with
  | some companyId => companyId.objectId
  | none => .ok u.companyId

def Upload.record (u : Upload) (id : Id) : Except String FileRecord := do
  let companyId ← u.company
  return {
    id := id
    companyId := companyId
    ownerUserId := u.ownerUserId
    purpose := u.purpose
    storagePath := u.key
    mimeType := u.mimeType
    sizeBytes := u.buffer.length
    originalName := u.originalName }

/-- The storage on the local disk, as it is configured and validated; `castId` is how the
database reads an identifier. -/
structure Server where
  cfg : Config
  rooted : Rooted cfg
  notTop : rooted.root.segments ≠ []
  prims : Primitives
  key : List Char
  ttlSeconds : ℕ
  ttl_range : 30 ≤ ttlSeconds ∧ ttlSeconds ≤ 3600
  castId : List Char → Option Id
  castId_idText (id : Id) : id < 16 ^ 24 → castId (idText id) = some id

/-- How far an upload has come. -/
inductive Stage where
  | writing | written | recorded
deriving DecidableEq, Repr

/-- A token that was given out. -/
structure Minted where
  fileId : Id
  user : SessionUser
  mintedAt : Instant

structure Served where
  file : FileRecord
  bytes : List UInt8
  servedAt : Instant

structure State where
  disk : List Char → Option (List UInt8) := fun _ => none
  uploads : List (Upload × Stage) := []
  records : List FileRecord := []
  clock : Instant := 0
  tokens : List Minted := []
  served : List Served := []

/-! ### Requests -/

/-- `findById(id)` under the scope of the request. -/
def findForDownload (ctx : RequestScope) (records : List FileRecord) (id : Id) :
    Except String FileRecord := do
  let scope ← pluginScope ctx .tenantScoped
  let byId := Conditions.only (.field "_id") fun d =>
    decide (Document.get d "_id" = some (.objectId id))
  match records.find? fun f => (scopedFilter scope byId).holds f.document with
  | some f => .ok f
  | none => .error "File not found"

section server
variable (server : Server)

/-- `GET files/:id`; the token of the location it answers with. -/
def download (user : SessionUser) (id : Id) (s : State) : Except String (FileRecord × List Char) := do
  let file ← findForDownload user.requestScope s.records id
  return (file, mintLocalToken server.prims (idText file.id) server.key server.ttlSeconds s.clock)

/-- `GET files/:id/content` -/
def content (idParam : List Char) (token : Option (List Char)) (s : State) :
    Except String Served := do
  let some id := server.castId idParam | throw "Invalid identifier"
  let .ok () := verifyLocalToken server.prims token idParam server.key s.clock
    | throw "Invalid or expired file token"
  let some file := s.records.find? (·.id = id) | throw "File not found"
  let path ← absolutePathFor server.cfg file.storagePath
  let some bytes := s.disk path | throw "ENOENT"
  return { file := file, bytes := bytes, servedAt := s.clock }

/-- A signature that matches is one the server has made. -/
def Unforged (token : List Char) (s : State) : Prop :=
  ∀ fileId raw signature, split '.' token = [fileId, raw, signature] →
    decodeHex signature = server.prims.hmac server.key (fileId ++ '.' :: raw) →
    ∃ m ∈ s.tokens, fileId ++ '.' :: raw =
      payloadOf (idText m.fileId) (m.mintedAt / 1000 + server.ttlSeconds)

inductive Step (s : State) : State → Prop where
  | tick {now : Instant} (hlater : s.clock ≤ now) (hrange : now ≤ 8640000000000000) :
      Step s { s with clock := now }
  | arrive {u : Upload} (hfresh : u.uuid.text ∉ s.uploads.map (·.1.uuid.text)) :
      Step s { s with uploads := s.uploads ++ [(u, .writing)] }
  | torn {i : ℕ} {u : Upload} {bytes : List UInt8} {path : List Char}
      (hupload : s.uploads[i]? = some (u, .writing))
      (hpath : absolutePathFor server.cfg u.key = .ok path) :
      Step s { s with disk := Function.update s.disk path (some bytes) }
  | put {i : ℕ} {u : Upload} {path : List Char} (hupload : s.uploads[i]? = some (u, .writing))
      (hpath : absolutePathFor server.cfg u.key = .ok path) :
      Step s { s with
        disk := Function.update s.disk path (some u.buffer)
        uploads := s.uploads.set i (u, .written) }
  | create {i : ℕ} {u : Upload} {id : Id} {file : FileRecord}
      (hupload : s.uploads[i]? = some (u, .written)) (hid : id ∉ s.records.map (·.id))
      (hrange : id < 16 ^ 24) (hrecord : u.record id = .ok file) :
      Step s { s with
        records := s.records ++ [file]
        uploads := s.uploads.set i (u, .recorded) }
  | download {user : SessionUser} {id : Id} {file : FileRecord} {token : List Char}
      (h : Storage.download server user id s = .ok (file, token)) :
      Step s { s with tokens := s.tokens ++ [⟨file.id, user, s.clock⟩] }
  | content {idParam token : List Char} {v : Served} (hunforged : Unforged server token s)
      (h : Storage.content server idParam (some token) s = .ok v) :
      Step s { s with served := s.served ++ [v] }

/-! ### What a user may read -/

/-- The record is of the user's own company, or the user is the operator of the platform. -/
def MayRead (user : SessionUser) (f : FileRecord) : Prop :=
  user.role = .superAdmin ∨ user.companyId = some f.companyId

theorem FileRecord.document_id (f : FileRecord) : f.document.get "_id" = some (.objectId f.id) :=
  rfl

theorem FileRecord.document_companyId (f : FileRecord) :
    f.document.get "companyId" = some (.objectId f.companyId) := rfl

theorem FileRecord.names_companyId {f : FileRecord} {user : SessionUser} :
    f.document.names "companyId" user.requestScope.companyId = true ↔
      user.companyId = some f.companyId := by
  rw [names_iff]
  cases hcompany : user.companyId <;>
    simp [f.document_companyId, SessionUser.requestScope, hcompany, eq_comm]

theorem findForDownload_ok {user : SessionUser} {records : List FileRecord} {id : Id}
    {f : FileRecord} (h : findForDownload user.requestScope records id = .ok f) :
    f ∈ records ∧ f.id = id ∧ MayRead user f := by
  unfold findForDownload at h
  obtain ⟨scope, hscope, h⟩ := except_bind_ok h
  dsimp only at h
  split at h
  · rename_i g hfind
    obtain rfl := Except.ok.inj h
    have hmem := List.mem_of_find?_eq_some hfind
    have hholds := List.find?_some hfind
    rcases pluginScope_spec hscope with ⟨rfl, hnone | hsuper⟩ | ⟨p, rfl, hown, hnames⟩
    · cases hnone
    · have hid : g.id = id := by simpa [scopedFilter, g.document_id] using hholds
      exact ⟨hmem, hid, .inl (Option.some.inj hsuper)⟩
    · rw [scopedFilter, Conditions.holds_merge_disjoint, Conditions.holds_only, Bool.and_eq_true,
        hown] at hholds
      · have hid : g.id = id := by simpa [g.document_id] using hholds.1
        have hcompany : g.document.names "companyId" user.requestScope.companyId = true := by
          simpa [ownRecord, ownFields] using hholds.2
        exact ⟨hmem, hid, .inr (FileRecord.names_companyId.mp hcompany)⟩
      · intro n hn
        obtain ⟨e, he, rfl⟩ := hnames n hn
        obtain rfl := List.mem_singleton.mp he
        rw [Conditions.get_only, if_neg (by simp)]
  · cases h

theorem find_id {records : List FileRecord} (hids : (records.map (·.id)).Nodup) {f : FileRecord}
    (hf : f ∈ records) : records.find? (·.id = f.id) = some f := by
  cases hfind : records.find? fun g => decide (g.id = f.id) with
  | none => exact absurd (List.find?_eq_none.mp hfind f hf) (by simp)
  | some g =>
      have hid : g.id = f.id := by simpa using List.find?_some hfind
      rw [List.inj_on_of_nodup_map hids (List.mem_of_find?_eq_some hfind) hf hid]

theorem Upload.record_ok {u : Upload} {id : Id} {f : FileRecord} (h : u.record id = .ok f) :
    f.id = id ∧ f.storagePath = u.key ∧ f.sizeBytes = u.buffer.length := by
  unfold Upload.record at h
  obtain ⟨companyId, -, h⟩ := except_bind_ok h
  simp only [pure, Except.pure, Except.ok.injEq] at h
  simp only [← h, and_self]

/-! ### Every record has its bytes -/

/-- The path of an upload. -/
def Server.path (u : Upload) : List Char :=
  (server.rooted.root.append (uploadNames u.companyId u.uuid u.originalName)).text

variable {server} {s : State}

theorem absolutePathFor_key (u : Upload) :
    absolutePathFor server.cfg u.key = .ok (server.path u) :=
  absolutePathFor_storageKey server.rooted server.notTop u.companyId u.uuid u.originalName

theorem path_ne {uploads : List (Upload × Stage)} {i j : ℕ} {u v : Upload} {su sv : Stage}
    (huuids : (uploads.map (·.1.uuid.text)).Nodup) (hu : uploads[i]? = some (u, su))
    (hv : uploads[j]? = some (v, sv)) (hne : j ≠ i) : server.path v ≠ server.path u := by
  intro heq
  have huuid := path_injective heq
  have hi : (uploads.map (·.1.uuid.text))[i]? = some u.uuid.text := by
    rw [List.getElem?_map, hu]
    rfl
  have hj : (uploads.map (·.1.uuid.text))[j]? = some u.uuid.text := by
    rw [List.getElem?_map, hv, ← huuid]
    rfl
  exact hne ((List.getElem?_inj (List.getElem?_eq_some_iff.mp hj).choose huuids).mp
    (hj.trans hi.symm))

/-- Of uploads, the bytes of those that have been written; of records, their upload. -/
structure Kept (server : Server) (s : State) : Prop where
  uuids : (s.uploads.map (·.1.uuid.text)).Nodup
  bytes (i : ℕ) (u : Upload) (stage : Stage) : s.uploads[i]? = some (u, stage) →
    stage ≠ .writing → s.disk (server.path u) = some u.buffer
  records (f : FileRecord) : f ∈ s.records → f.id < 16 ^ 24 ∧
    ∃ (i : ℕ) (u : Upload), s.uploads[i]? = some (u, .recorded) ∧ u.record f.id = .ok f
  ids : (s.records.map (·.id)).Nodup

theorem kept_empty : Kept server {} where
  uuids := List.nodup_nil
  bytes i u stage h := by cases h
  records f h := by cases h
  ids := List.nodup_nil

theorem getElem?_set_upload {uploads : List (Upload × Stage)} {i j : ℕ} {e e' : Upload × Stage}
    (h : (uploads.set i e)[j]? = some e') : j = i ∧ e' = e ∨ j ≠ i ∧ uploads[j]? = some e' := by
  rw [List.getElem?_set] at h
  split_ifs at h with hij hi
  · exact .inl ⟨hij.symm, (Option.some.inj h).symm⟩
  · exact .inr ⟨fun hji => hij hji.symm, h⟩

theorem set_uuids {uploads : List (Upload × Stage)} {i : ℕ} {u : Upload} {stage stage' : Stage}
    (h : uploads[i]? = some (u, stage)) :
    (uploads.set i (u, stage')).map (·.1.uuid.text) = uploads.map (·.1.uuid.text) := by
  obtain ⟨hi, hget⟩ := List.getElem?_eq_some_iff.mp h
  have hmap : i < (uploads.map (·.1.uuid.text)).length := by simpa using hi
  have hself := List.set_getElem_self hmap
  rw [List.getElem_map, hget] at hself
  rw [List.map_set, hself]

theorem Kept.arrive (h : Kept server s) {u : Upload}
    (hfresh : u.uuid.text ∉ s.uploads.map (·.1.uuid.text)) :
    Kept server { s with uploads := s.uploads ++ [(u, .writing)] } where
  uuids := by
    rw [← List.concat_eq_append, List.map_concat]
    exact h.uuids.concat hfresh
  bytes i v stage hv hstage := by
    rw [List.getElem?_append] at hv
    split_ifs at hv
    · exact h.bytes i v stage hv hstage
    · have hmem := List.mem_singleton.mp (List.mem_of_getElem? hv)
      exact absurd (congrArg Prod.snd hmem) hstage
  records f hf := by
    obtain ⟨hrange, i, v, hv, hrecord⟩ := h.records f hf
    have hi := (List.getElem?_eq_some_iff.mp hv).choose
    exact ⟨hrange, i, v, (List.getElem?_append_left hi).trans hv, hrecord⟩
  ids := h.ids

/-- Bytes written for one upload are not where those of another lie. -/
theorem Kept.update (h : Kept server s) {i : ℕ} {u : Upload} {bytes : List UInt8}
    (hu : s.uploads[i]? = some (u, .writing)) :
    Kept server { s with disk := Function.update s.disk (server.path u) (some bytes) } where
  uuids := h.uuids
  bytes j v stage hv hstage := by
    have hne : j ≠ i := by
      rintro rfl
      rw [hu] at hv
      exact hstage (congrArg Prod.snd (Option.some.inj hv)).symm
    have hother : server.path v ≠ server.path u := path_ne h.uuids hu hv hne
    dsimp only
    rw [Function.update_of_ne hother]
    exact h.bytes j v stage hv hstage
  records := h.records
  ids := h.ids

theorem Kept.put (h : Kept server s) {i : ℕ} {u : Upload}
    (hu : s.uploads[i]? = some (u, .writing)) :
    Kept server { s with
      disk := Function.update s.disk (server.path u) (some u.buffer)
      uploads := s.uploads.set i (u, .written) } where
  uuids := by
    rw [set_uuids hu]
    exact h.uuids
  bytes j v stage hv hstage := by
    rcases getElem?_set_upload hv with ⟨-, heq⟩ | ⟨-, hv⟩
    · obtain ⟨rfl, -⟩ := Prod.mk.inj heq
      exact Function.update_self ..
    · exact (h.update hu).bytes j v stage hv hstage
  records f hf := by
    obtain ⟨hrange, j, v, hv, hrecord⟩ := h.records f hf
    have hne : i ≠ j := by
      rintro rfl
      rw [hu] at hv
      cases hv
    exact ⟨hrange, j, v, (List.getElem?_set_ne hne).trans hv, hrecord⟩
  ids := h.ids

theorem Kept.create (h : Kept server s) {i : ℕ} {u : Upload} {id : Id} {file : FileRecord}
    (hu : s.uploads[i]? = some (u, .written)) (hid : id ∉ s.records.map (·.id))
    (hrange : id < 16 ^ 24) (hrecord : u.record id = .ok file) :
    Kept server { s with
      records := s.records ++ [file]
      uploads := s.uploads.set i (u, .recorded) } where
  uuids := by
    rw [set_uuids hu]
    exact h.uuids
  bytes j v stage hv hstage := by
    rcases getElem?_set_upload hv with ⟨-, heq⟩ | ⟨-, hv⟩
    · obtain ⟨rfl, -⟩ := Prod.mk.inj heq
      exact h.bytes i _ _ hu (by decide)
    · exact h.bytes j v stage hv hstage
  records f hf := by
    have hi := (List.getElem?_eq_some_iff.mp hu).choose
    rcases List.mem_append.mp hf with hf | hf
    · obtain ⟨hfrange, j, v, hv, hfrecord⟩ := h.records f hf
      have hne : i ≠ j := by
        rintro rfl
        rw [hu] at hv
        cases hv
      exact ⟨hfrange, j, v, (List.getElem?_set_ne hne).trans hv, hfrecord⟩
    · obtain rfl := List.mem_singleton.mp hf
      rw [(Upload.record_ok hrecord).1]
      exact ⟨hrange, i, u, List.getElem?_set_self hi, hrecord⟩
  ids := by
    have hfile : file.id = id := (Upload.record_ok hrecord).1
    rw [← List.concat_eq_append, List.map_concat]
    exact h.ids.concat fun ha => hid (hfile ▸ ha)

theorem Kept.step (h : Kept server s) {s' : State} (hstep : Step server s s') : Kept server s' := by
  have hpath : ∀ {u : Upload} {path : List Char}, absolutePathFor server.cfg u.key = .ok path →
      path = server.path u := by
    intro u path hpath
    rw [absolutePathFor_key] at hpath
    exact (Except.ok.inj hpath).symm
  cases hstep with
  | tick => exact ⟨h.uuids, h.bytes, h.records, h.ids⟩
  | arrive hfresh => exact h.arrive hfresh
  | torn hupload hp =>
      obtain rfl := hpath hp
      exact h.update hupload
  | put hupload hp =>
      obtain rfl := hpath hp
      exact h.put hupload
  | create hupload hid hrange hrecord => exact h.create hupload hid hrange hrecord
  | download => exact ⟨h.uuids, h.bytes, h.records, h.ids⟩
  | content => exact ⟨h.uuids, h.bytes, h.records, h.ids⟩

theorem kept_run {s' : State} (h : Relation.ReflTransGen (Step server) s s') (hs : Kept server s) :
    Kept server s' := by
  induction h with
  | refl => exact hs
  | tail _ hstep ih => exact ih.step hstep

/-! ### Reading a file -/

theorem Kept.disk (h : Kept server s) {f : FileRecord} (hf : f ∈ s.records) :
    ∃ (i : ℕ) (u : Upload), s.uploads[i]? = some (u, .recorded) ∧ u.record f.id = .ok f ∧
      absolutePathFor server.cfg f.storagePath = .ok (server.path u) ∧
        s.disk (server.path u) = some u.buffer := by
  obtain ⟨-, i, u, hu, hrecord⟩ := h.records f hf
  refine ⟨i, u, hu, hrecord, ?_, h.bytes i u _ hu (by decide)⟩
  rw [(Upload.record_ok hrecord).2.1, absolutePathFor_key]

theorem Step.records {s' : State} (hstep : Step server s s') : s.records <+: s'.records := by
  cases hstep with
  | create => exact List.prefix_append _ _
  | _ => exact List.prefix_rfl

theorem Step.clock {s' : State} (hstep : Step server s s') :
    s.clock ≤ s'.clock ∧ (s.clock ≤ 8640000000000000 → s'.clock ≤ 8640000000000000) := by
  cases hstep with
  | tick hlater hrange => exact ⟨hlater, fun _ => hrange⟩
  | _ => exact ⟨le_refl _, fun h => h⟩

theorem run_records {s' : State} (h : Relation.ReflTransGen (Step server) s s') :
    s.records <+: s'.records := by
  induction h with
  | refl => exact List.prefix_rfl
  | tail _ hstep ih => exact ih.trans hstep.records

theorem run_clock {s' : State} (h : Relation.ReflTransGen (Step server) s s') :
    s.clock ≤ s'.clock ∧ (s.clock ≤ 8640000000000000 → s'.clock ≤ 8640000000000000) := by
  induction h with
  | refl => exact ⟨le_refl _, fun h => h⟩
  | tail _ hstep ih => exact ⟨ih.1.trans hstep.clock.1, fun h => hstep.clock.2 (ih.2 h)⟩

theorem dot_notMem_idText (id : Id) : '.' ∉ idText id := by
  intro hmem
  obtain ⟨d, hd, heq⟩ := List.mem_map.mp hmem
  exact (digitChar_plain d (digits_lt (by decide) hd)).2 heq

/-- A token for a record that is kept is answered with the bytes of its upload. -/
theorem content_mint (hkept : Kept server s) {f : FileRecord} (hmem : f ∈ s.records)
    {mintedAt : Instant} (hclock : mintedAt ≤ 8640000000000000)
    (hlive : s.clock / 1000 ≤ mintedAt / 1000 + server.ttlSeconds) :
    ∃ (i : ℕ) (u : Upload), s.uploads[i]? = some (u, .recorded) ∧ u.record f.id = .ok f ∧
      content server (idText f.id) (some (mintLocalToken server.prims (idText f.id) server.key
        server.ttlSeconds mintedAt)) s = .ok ⟨f, u.buffer, s.clock⟩ := by
  obtain ⟨i, u, hu, hrecord, hpath, hdisk⟩ := hkept.disk hmem
  have hverify : verifyLocalToken server.prims (some (mintLocalToken server.prims (idText f.id)
      server.key server.ttlSeconds mintedAt)) (idText f.id) server.key s.clock = .ok () := by
    refine (verify_mint (dot_notMem_idText f.id) ?_).mpr hlive
    have httl := server.ttl_range.2
    have hseconds : mintedAt / 1000 ≤ 8640000000000000 / 1000 := Nat.div_le_div_right hclock
    calc mintedAt / 1000 + server.ttlSeconds
        ≤ 8640000000000000 / 1000 + 3600 := Nat.add_le_add hseconds httl
      _ < 10 ^ 15 := by decide
  have hcast := server.castId_idText f.id (hkept.records f hmem).1
  refine ⟨i, u, hu, hrecord, ?_⟩
  simp only [content, hcast, hverify, find_id hkept.ids hmem, hpath, hdisk, bind, Except.bind,
    pure, Except.pure]

/-- Where a user is sent for a file stays good for as long as the token lasts, whatever is
uploaded, torn or read meanwhile, and answers with the bytes that were uploaded. -/
theorem download_leads_to_bytes (server : Server) (s s' : State)
    (hs : Relation.ReflTransGen (Step server) {} s)
    (hrun : Relation.ReflTransGen (Step server) s s') (user : SessionUser) (id : Id)
    (file : FileRecord) (token : List Char) (hdownload : download server user id s = .ok (file, token))
    (hlive : s'.clock / 1000 ≤ s.clock / 1000 + server.ttlSeconds) :
    file.id = id ∧ MayRead user file ∧ ∃ (i : ℕ) (u : Upload),
      s'.uploads[i]? = some (u, .recorded) ∧ u.record file.id = .ok file ∧
        content server (idText file.id) (some token) s' = .ok ⟨file, u.buffer, s'.clock⟩ := by
  unfold download at hdownload
  obtain ⟨f, hfind, heq⟩ := except_bind_ok hdownload
  simp only [pure, Except.pure, Except.ok.injEq, Prod.mk.injEq] at heq
  obtain ⟨rfl, rfl⟩ := heq
  obtain ⟨hmem, hid, hread⟩ := findForDownload_ok hfind
  have hclock : s.clock ≤ 8640000000000000 := (run_clock hs).2 (Nat.zero_le _)
  exact ⟨hid, hread, content_mint (kept_run hrun (kept_run hs kept_empty))
    ((run_records hrun).subset hmem) hclock hlive⟩

/-! ### Who is given bytes -/

theorem content_ok {idParam token : List Char} {v : Served}
    (h : content server idParam (some token) s = .ok v) :
    ∃ id, server.castId idParam = some id ∧
      verifyLocalToken server.prims (some token) idParam server.key s.clock = .ok () ∧
      s.records.find? (·.id = id) = some v.file ∧ v.servedAt = s.clock ∧
        ∃ path, absolutePathFor server.cfg v.file.storagePath = .ok path ∧
          s.disk path = some v.bytes := by
  unfold content at h
  split at h
  · rename_i id hcast
    split at h
    · rename_i hverify
      split at h
      · rename_i file hfind
        obtain ⟨path, hpath, h⟩ := except_bind_ok h
        split at h
        · rename_i bytes hdisk
          cases h
          exact ⟨id, hcast, hverify, hfind, rfl, path, hpath, hdisk⟩
        · cases h
      · cases h
    · cases h
  · cases h

/-- Of two texts with a dot, those without one before it are the same. -/
theorem payload_injective {a b x y : List Char} (ha : '.' ∉ a) (hb : '.' ∉ b)
    (h : a ++ '.' :: x = b ++ '.' :: y) : a = b ∧ x = y := by
  have hsplit := congrArg (split '.') h
  rw [split_cons ha, split_cons hb, List.cons.injEq] at hsplit
  obtain ⟨rfl, -⟩ := hsplit
  exact ⟨rfl, by simpa using h⟩

/-- A token is accepted for the file of a token that was given out, and no longer. -/
theorem accepted_minted {idParam token : List Char} (hunforged : Unforged server token s)
    (hclock : ∀ m ∈ s.tokens, m.mintedAt ≤ 8640000000000000)
    (h : verifyLocalToken server.prims (some token) idParam server.key s.clock = .ok ()) :
    ∃ m ∈ s.tokens, idParam = idText m.fileId ∧
      s.clock / 1000 ≤ m.mintedAt / 1000 + server.ttlSeconds := by
  obtain ⟨raw, signature, hsplit, hsign, expiresAt, hnumber, hlive⟩ := verifyLocalToken_ok.mp h
  obtain ⟨m, hm, hpayload⟩ := hunforged idParam raw signature hsplit hsign
  have hdot : '.' ∉ idParam := sep_notMem_split idParam (hsplit ▸ List.mem_cons_self)
  obtain ⟨hid, hraw⟩ := payload_injective hdot (dot_notMem_idText m.fileId) hpayload
  refine ⟨m, hm, hid, ?_⟩
  have hseconds : m.mintedAt / 1000 ≤ 8640000000000000 / 1000 :=
    Nat.div_le_div_right (hclock m hm)
  have hrange : m.mintedAt / 1000 + server.ttlSeconds < 10 ^ 15 :=
    (Nat.add_le_add hseconds server.ttl_range.2).trans_lt (by decide)
  rw [hraw, numberOf_decimal hrange] at hnumber
  obtain rfl := Option.some.inj hnumber
  exact_mod_cast hlive

/-- Whoever is given the bytes of a file holds a token that a user was given who may read it,
and it has not expired. -/
structure Authorised (server : Server) (s : State) : Prop where
  tokens (m : Minted) : m ∈ s.tokens → m.mintedAt ≤ s.clock ∧
    ∃ f ∈ s.records, f.id = m.fileId ∧ MayRead m.user f
  served (v : Served) : v ∈ s.served →
    (∃ (i : ℕ) (u : Upload), s.uploads[i]? = some (u, .recorded) ∧
      u.record v.file.id = .ok v.file ∧ v.bytes = u.buffer) ∧
    ∃ m ∈ s.tokens, m.fileId = v.file.id ∧ MayRead m.user v.file ∧ m.mintedAt ≤ v.servedAt ∧
      v.servedAt / 1000 ≤ m.mintedAt / 1000 + server.ttlSeconds

theorem Step.recorded {s' : State} (hstep : Step server s s') {i : ℕ} {u : Upload}
    (h : s.uploads[i]? = some (u, .recorded)) : s'.uploads[i]? = some (u, .recorded) := by
  have hother : ∀ {j : ℕ} {v : Upload} {stage : Stage}, stage ≠ .recorded →
      s.uploads[j]? = some (v, stage) → j ≠ i := by
    rintro j v stage hstage hv rfl
    rw [h] at hv
    exact hstage (congrArg Prod.snd (Option.some.inj hv)).symm
  cases hstep with
  | arrive =>
      exact (List.getElem?_append_left (List.getElem?_eq_some_iff.mp h).choose).trans h
  | put hupload => exact (List.getElem?_set_ne (hother (by decide) hupload)).trans h
  | create hupload => exact (List.getElem?_set_ne (hother (by decide) hupload)).trans h
  | _ => exact h

theorem Authorised.grow {s' : State} (h : Authorised server s) (hstep : Step server s s')
    (htokens : ∀ m ∈ s'.tokens, m ∈ s.tokens ∨ m.mintedAt ≤ s'.clock ∧
      ∃ f ∈ s'.records, f.id = m.fileId ∧ MayRead m.user f)
    (hkept : ∀ m ∈ s.tokens, m ∈ s'.tokens) (hserved : s'.served = s.served) :
    Authorised server s' where
  tokens m hm := by
    rcases htokens m hm with hold | hnew
    · obtain ⟨hat, f, hf, hread⟩ := h.tokens m hold
      exact ⟨hat.trans hstep.clock.1, f, hstep.records.subset hf, hread⟩
    · exact hnew
  served v hv := by
    obtain ⟨⟨i, u, hu, hbytes⟩, m, hm, hminted⟩ := h.served v (hserved ▸ hv)
    exact ⟨⟨i, u, hstep.recorded hu, hbytes⟩, m, hkept m hm, hminted⟩

theorem Authorised.step {s' : State} (h : Authorised server s) (hkept : Kept server s)
    (hclock : s.clock ≤ 8640000000000000) (hstep : Step server s s') : Authorised server s' := by
  have hgrow : s'.tokens = s.tokens → s'.served = s.served → Authorised server s' := by
    intro htokens hserved
    exact h.grow hstep (fun m hm => .inl (htokens ▸ hm)) (fun m hm => htokens ▸ hm) hserved
  cases hstep with
  | @download user id file token hdownload =>
      unfold Storage.download at hdownload
      obtain ⟨f, hfind, heq⟩ := except_bind_ok hdownload
      simp only [pure, Except.pure, Except.ok.injEq, Prod.mk.injEq] at heq
      obtain ⟨rfl, -⟩ := heq
      obtain ⟨hmem, -, hread⟩ := findForDownload_ok hfind
      refine h.grow (.download hdownload) (fun m hm => ?_)
        (fun m hm => List.mem_append_left _ hm) rfl
      rcases List.mem_append.mp hm with hm | hm
      · exact .inl hm
      · obtain rfl := List.mem_singleton.mp hm
        exact .inr ⟨le_refl _, f, hmem, rfl, hread⟩
  | @content idParam token v hunforged hcontent =>
      refine ⟨h.tokens, fun w hw => ?_⟩
      rcases List.mem_append.mp hw with hw | hw
      · exact h.served w hw
      · obtain rfl := List.mem_singleton.mp hw
        obtain ⟨id, hcast, hverify, hfind, hat, path, hpath, hdisk⟩ := content_ok hcontent
        obtain ⟨m, hm, hparam, hlive⟩ := accepted_minted hunforged
          (fun m hm => (h.tokens m hm).1.trans hclock) hverify
        obtain ⟨hmat, f, hf, hfid, hread⟩ := h.tokens m hm
        have hrange : m.fileId < 16 ^ 24 := by
          rw [← hfid]
          exact (hkept.records f hf).1
        rw [hparam, server.castId_idText m.fileId hrange] at hcast
        obtain rfl := Option.some.inj hcast
        rw [← hfid, find_id hkept.ids hf] at hfind
        obtain rfl := Option.some.inj hfind
        obtain ⟨i, u, hu, hrecord, hupath, hudisk⟩ := hkept.disk hf
        rw [hupath] at hpath
        obtain rfl := Except.ok.inj hpath
        rw [hudisk] at hdisk
        refine ⟨⟨i, u, hu, hrecord, (Option.some.inj hdisk).symm⟩, m, hm, hfid.symm, hread, ?_⟩
        rw [hat]
        exact ⟨hmat, hlive⟩
  | _ => exact hgrow rfl rfl

theorem authorised_run (h : Relation.ReflTransGen (Step server) {} s) : Authorised server s := by
  induction h with
  | refl => exact ⟨fun m hm => absurd hm List.not_mem_nil, fun v hv => absurd hv List.not_mem_nil⟩
  | tail hrun hstep ih =>
      exact ih.step (kept_run hrun kept_empty) ((run_clock hrun).2 (Nat.zero_le _)) hstep

/-- The second request has no user. Whatever it is given is the content of an upload, under a
token that was made, not longer ago than tokens last, for a user who may read that file. -/
theorem served_to_the_authorised (server : Server) (s : State)
    (h : Relation.ReflTransGen (Step server) {} s) (v : Served) (hv : v ∈ s.served) :
    (∃ (i : ℕ) (u : Upload), s.uploads[i]? = some (u, .recorded) ∧
      u.record v.file.id = .ok v.file ∧ v.bytes = u.buffer) ∧
    ∃ m ∈ s.tokens, m.fileId = v.file.id ∧ MayRead m.user v.file ∧ m.mintedAt ≤ v.servedAt ∧
      v.servedAt / 1000 ≤ m.mintedAt / 1000 + server.ttlSeconds :=
  (authorised_run h).served v hv

/-! ### One upload, read by its company -/

/-- What was minted is not forged. -/
theorem unforged_mint {m : Minted} (hm : m ∈ s.tokens) :
    Unforged server (mintLocalToken server.prims (idText m.fileId) server.key server.ttlSeconds
      m.mintedAt) s := by
  intro fileId raw signature hsplit _
  rw [split_mint (dot_notMem_idText m.fileId)] at hsplit
  simp only [List.cons.injEq, and_true] at hsplit
  refine ⟨m, hm, ?_⟩
  rw [← hsplit.1, ← hsplit.2.1, payloadOf]

end server

namespace Sample

def cfg : Config where
  cwd := ['/', 's', 'r', 'v']
  dir := ['d', 'a', 't', 'a']
  absolute := rfl

def root : Absolute :=
  ⟨[⟨['s', 'r', 'v'], by constructor <;> decide⟩, ⟨['d', 'a', 't', 'a'], by constructor <;> decide⟩]⟩

/-- The hash of the payload of file 1 until second 300, under the key `secret`. -/
def prims : Primitives where
  hmac _ _ := [226, 221, 46, 88, 206, 42, 170, 43, 66, 167, 123, 83, 66, 249, 225, 149, 150, 198, 103,
    137, 169, 177, 57, 43, 57, 88, 94, 103, 202, 130, 157, 108]
  otherNumber _ := none

def castId (cs : List Char) : Option Id :=
  if cs.length = 24 then (cs.mapM Json.hexValue).map (value 16) else none

theorem castId_idText (id : Id) (h : id < 16 ^ 24) : castId (idText id) = some id := by
  have hlength : (idText id).length = 24 := by
    rw [idText, digitsText, List.length_map, length_digits]
  rw [castId, if_pos hlength, idText,
    Json.mapM_hexValue fun d hd => digits_lt (by decide) hd, Option.map_some, value_digits,
    Nat.mod_eq_of_lt h]

def server : Server where
  cfg := cfg
  rooted := ⟨root, by decide⟩
  notTop := by decide
  prims := prims
  key := ['s', 'e', 'c', 'r', 'e', 't']
  ttlSeconds := 300
  ttl_range := by decide
  castId := castId
  castId_idText := castId_idText

def admin : SessionUser where
  userId := 7
  role := .fuelCompanyAdmin
  companyId := some 10

def upload : Upload where
  actor := admin.requestScope
  companyId := 10
  purpose := .commercialRegister
  buffer := [37, 80, 68, 70]
  mimeType := "application/pdf"
  originalName := ['.', '.', '/', 'a', '.', 'p', 'd', 'f']
  uuid := ⟨List.replicate 36 '0', rfl, by simp⟩

def file : FileRecord where
  id := 1
  companyId := 10
  ownerUserId := none
  purpose := .commercialRegister
  storagePath := upload.key
  mimeType := "application/pdf"
  sizeBytes := 4
  originalName := upload.originalName

/-- The bytes and the record of the upload. -/
def stored : State where
  disk := Function.update (fun _ => none) (server.path upload) (some upload.buffer)
  uploads := [(upload, .recorded)]
  records := [file]

theorem stored_reachable : Relation.ReflTransGen (Step server) {} stored := by
  have harrive : Step server {} { uploads := [(upload, .writing)] } := .arrive (by simp)
  have hput : Step server { uploads := [(upload, .writing)] } {
      disk := Function.update (fun _ => none) (server.path upload) (some upload.buffer)
      uploads := [(upload, .written)] } :=
    @Step.put server { uploads := [(upload, .writing)] } 0 upload _ rfl (absolutePathFor_key upload)
  have hcreate : Step server {
      disk := Function.update (fun _ => none) (server.path upload) (some upload.buffer)
      uploads := [(upload, .written)] } stored :=
    @Step.create server {
      disk := Function.update (fun _ => none) (server.path upload) (some upload.buffer)
      uploads := [(upload, .written)] } 0 upload 1 file rfl (by simp) (by decide) rfl
  exact .tail (.tail (.tail .refl harrive) hput) hcreate

def token : List Char := mintLocalToken prims (idText 1) ['s', 'e', 'c', 'r', 'e', 't'] 300 0

theorem stored_download : download server admin 1 stored = .ok (file, token) := rfl

/-- Another file of the same name. -/
def second : Upload :=
  { upload with
    buffer := [71, 73, 70]
    uuid := ⟨List.replicate 36 '1', rfl, by simp⟩ }

/-- Its first byte is on the disk. -/
def torn : State :=
  { stored with
    clock := 5000
    disk := Function.update stored.disk (server.path second) (some [71])
    uploads := [(upload, .recorded), (second, .writing)] }

/-- All of it is. -/
def later : State :=
  { torn with
    disk := Function.update torn.disk (server.path second) (some second.buffer)
    uploads := [(upload, .recorded), (second, .written)] }

theorem stored_later : Relation.ReflTransGen (Step server) stored later := by
  have htick : Step server stored { stored with clock := 5000 } := .tick (Nat.zero_le _) (by decide)
  have harrive : Step server { stored with clock := 5000 } { stored with
      clock := 5000
      uploads := [(upload, .recorded), (second, .writing)] } := .arrive (by decide)
  have htorn : Step server { stored with
      clock := 5000
      uploads := [(upload, .recorded), (second, .writing)] } torn :=
    @Step.torn server _ 1 second [71] _ rfl (absolutePathFor_key second)
  have hput : Step server torn later :=
    @Step.put server torn 1 second _ rfl (absolutePathFor_key second)
  exact .tail (.tail (.tail (.single htick) harrive) htorn) hput

end Sample

/-- Between the two requests another file is written. -/
theorem download_leads_to_bytes_company : ∃ (i : ℕ) (u : Upload),
    Sample.later.uploads[i]? = some (u, .recorded) ∧ u.record 1 = .ok Sample.file ∧
      content Sample.server (idText 1) (some Sample.token) Sample.later =
        .ok ⟨Sample.file, u.buffer, 5000⟩ :=
  (download_leads_to_bytes Sample.server Sample.stored Sample.later Sample.stored_reachable
    Sample.stored_later Sample.admin 1 Sample.file Sample.token Sample.stored_download
    (by decide)).2.2

namespace Sample

def minted : State := { stored with tokens := [⟨1, admin, 0⟩] }

def served : State := { minted with served := [⟨file, upload.buffer, 0⟩] }

theorem served_reachable : Relation.ReflTransGen (Step server) {} served := by
  have hminted : Step server stored minted := .download stored_download
  have hunforged : Unforged server token minted :=
    @unforged_mint server minted ⟨1, admin, 0⟩ (List.mem_singleton_self _)
  have hcontent : content server (idText 1) (some token) minted = .ok ⟨file, upload.buffer, 0⟩ := by
    obtain ⟨i, u, hu, -, hcontent⟩ := content_mint (s := minted)
      (kept_run (.tail stored_reachable hminted) kept_empty) (List.mem_singleton_self file)
      (Nat.zero_le _) (by decide)
    have hupload : (u, Stage.recorded) = (upload, Stage.recorded) :=
      List.mem_singleton.mp (List.mem_of_getElem? hu)
    obtain ⟨rfl, -⟩ := Prod.mk.inj hupload
    exact hcontent
  exact .tail (.tail stored_reachable hminted) (.content hunforged hcontent)

end Sample

theorem served_to_the_authorised_company : ∃ m ∈ Sample.served.tokens,
    m.fileId = 1 ∧ MayRead m.user Sample.file := by
  obtain ⟨-, m, hm, hfile, hread, -⟩ := served_to_the_authorised Sample.server Sample.served
    Sample.served_reachable ⟨Sample.file, Sample.upload.buffer, 0⟩ (List.mem_singleton_self _)
  exact ⟨m, hm, hfile, hread⟩

end CiroFuel.Storage
