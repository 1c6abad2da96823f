import ReviewFlow.Integrations.Intake

/-!
# Where events and disconnects come from

Each row of the inbox is traced to a signed delivery, to a request of an API key or to a row of an
accepted file, and each disconnect to a manager or to a signed delivery of Shopify that names the
shop. A delivery and an import act on what they have read, so the trace is carried by them as well.
-/

namespace ReviewFlow.Integrations.Intake

open Python Tables Interleaving
open Events (Uuid)
open Events.Receipts (Connection Event Call recordEvent recordEvent_cases)
open CsvRuns (FileRow FileReader Bytes startCsvImport rowsOf)

variable {web : Platform} {s s₀ : Store} {ls : List Label} {l : Label}

def LooksUp (web : Platform) (r : Request) (i : Integration) (s : Store) (l : Label) : Prop :=
  ∃ n, l = .lookUp n ∧ s.deliveries[n]? = some (.arrived r) ∧ r.integrationId = some i.id ∧
    i ∈ s.integrations ∧ i.provider = r.provider ∧ i.verify web r = true

/-- The event is what the body of a signed delivery of a sale says. -/
def DeliversSale (web : Platform) (e : Event Str Payload) (s : Store) (l : Label) : Prop :=
  ∃ r i payload, LooksUp web r i s l ∧ i.status ≠ .disconnected ∧ i.isSaleEvent r = true ∧
    web.loads r.body = some (.dict payload) ∧
    i.externalEventId web r payload = .ok e.externalEventId ∧
    e.payload = .json payload ∧ e.integrationId = i.id ∧ e.merchantId = i.merchantId

/-- The event is what a request with an API key of its merchant says, and it is a sale. -/
def ApiSends (web : Platform) (e : Event Str Payload) (s : Store) (l : Label) : Prop :=
  ∃ payload eventId i sale, l = .apiSale e.merchantId (.dict payload) true eventId ∧
    i ∈ s.integrations ∧ i.provider = .api ∧ i.status = .connected ∧
    i.merchantId = e.merchantId ∧ Api.normalize web.py (Api.parse payload) = .ok sale ∧
    Api.getExternalEventId web.py payload = .ok e.externalEventId ∧
    e.payload = .json payload ∧ e.integrationId = i.id

def Stages (web : Platform) (m : Message) (raw : Bytes) (s : Store) (l : Label) : Prop :=
  ∃ i n, l = .stage m.merchantId m.integrationId (some raw) m.key ∧
    i ∈ s.integrations ∧ i.id = m.integrationId ∧ i.merchantId = m.merchantId ∧
    i.provider = .csv ∧
    startCsvImport web.py web.files true i.toConnection (some raw) = .ok n

def StagesRow (web : Platform) (e : Event Str Payload) (s : Store) (l : Label) : Prop :=
  ∃ key raw row, Stages web ⟨e.merchantId, e.integrationId, key⟩ raw s l ∧
    row ∈ rowsOf web.files raw ∧ e.payload = .row row ∧
    CsvImport.getExternalEventId web.py row.fields = .ok e.externalEventId

def DeliversUninstall (web : Platform) (integrationId : Uuid) (s : Store) (l : Label) : Prop :=
  ∃ r i payload, LooksUp web r i s l ∧ i.id = integrationId ∧ i.isUninstallEvent r = true ∧
    r.webhookId ≠ [] ∧ web.loads r.body = some (.dict payload) ∧
    i.uninstallPayloadMatches web payload = true

section Decisions

variable {i : Integration} {r : Request} {key : Str} {payload : Dict}

theorem decide_eq_record (h : i.decide web r = .record key payload) :
    i.provider = r.provider ∧ i.verify web r = true ∧ i.status ≠ .disconnected ∧
      i.isSaleEvent r = true ∧ web.loads r.body = some (.dict payload) ∧
      i.externalEventId web r payload = .ok key := by
  unfold Integration.decide at h
  split at h
  · cases h
  case isFalse hprovider =>
    split at h
    · cases h
    case isFalse hverify =>
      split at h
      · exfalso
        unfold Integration.decideUninstall at h
        split at h
        · cases h
        · split at h
          · split at h
            · cases h
            · split at h <;> cases h
          · cases h
      · unfold Integration.decideSale at h
        split at h
        · cases h
        case isFalse hstatus =>
          split at h
          · cases h
          case isFalse hsale =>
            split at h
            case h_1 payload' hloads =>
              split at h
              case h_1 key' hkey =>
                cases h
                exact ⟨not_not.mp hprovider, by simpa using hverify, hstatus, by simpa using hsale,
                  hloads, hkey⟩
              all_goals cases h
            case h_2 => cases h

theorem decide_eq_uninstall (h : i.decide web r = .uninstall) :
    i.provider = r.provider ∧ i.verify web r = true ∧ i.isUninstallEvent r = true ∧
      r.webhookId ≠ [] ∧ ∃ payload, web.loads r.body = some (.dict payload) ∧
        i.uninstallPayloadMatches web payload = true := by
  unfold Integration.decide at h
  split at h
  · cases h
  case isFalse hprovider =>
    split at h
    · cases h
    case isFalse hverify =>
      split at h
      case isTrue huninstall =>
        unfold Integration.decideUninstall at h
        split at h
        · cases h
        case isFalse hid =>
          split at h
          case h_1 payload hloads =>
            split at h
            · cases h
            case isFalse hmatches =>
              exact ⟨not_not.mp hprovider, by simpa using hverify, huninstall, hid, payload, hloads,
                by simpa using hmatches⟩
          case h_2 => cases h
      · exfalso
        unfold Integration.decideSale at h
        split at h
        · cases h
        · split at h
          · cases h
          · split at h
            · split at h <;> cases h
            · cases h

theorem lookUp_decided {d : Decision} {r' : Request} (h : s.lookUp web r = .decided r' i d) :
    r' = r ∧ r.integrationId = some i.id ∧ i ∈ s.integrations ∧ i.decide web r = d := by
  unfold Store.lookUp at h
  split at h
  · cases h
  case h_2 i' hi =>
    obtain ⟨id, hid, hfound⟩ := Option.bind_eq_some_iff.mp hi
    obtain ⟨hmem, hkey⟩ := Table.mem_of_find? hfound
    split at h
    · cases h
    · cases h
      exact ⟨rfl, by rw [hid, beq_iff_eq.mp hkey], hmem, rfl⟩

theorem ownIntegration_eq {merchantId id : Uuid} (h : s.ownIntegration? merchantId id = some i) :
    i ∈ s.integrations ∧ i.id = id ∧ i.merchantId = merchantId := by
  obtain ⟨hfound, hmerchant⟩ := Option.filter_eq_some_iff.mp h
  obtain ⟨hmem, hid⟩ := Table.mem_of_find? hfound
  exact ⟨hmem, beq_iff_eq.mp hid, beq_iff_eq.mp hmerchant⟩

end Decisions

section Steps

inductive Inserts (web : Platform) (s : Store) (l : Label) : Event Str Payload → Prop where
  | delivery (n : ℕ) (eventId : Uuid) (r : Request) (i : Integration) (key : Str) (payload : Dict)
      (hl : l = .settle n eventId)
      (hn : s.deliveries[n]? = some (.decided r i (.record key payload))) :
      Inserts web s l ⟨eventId, i.merchantId, i.id, key, .json payload⟩
  | api (merchantId : Uuid) (payload : Json) (located : Bool) (eventId : Uuid) (i : Integration)
      (key : Str) (fields : Dict) (hl : l = .apiSale merchantId payload located eventId)
      (h : s.apiSale web merchantId payload located = some (i, key, fields)) :
      Inserts web s l ⟨eventId, i.merchantId, i.id, key, .json fields⟩
  | row (n : ℕ) (eventId : Uuid) (run : Import) (row : FileRow) (rows : List FileRow) (key : Str)
      (hl : l = .importRow n eventId) (hn : s.imports[n]? = some run)
      (hrows : run.rows = row :: rows)
      (hkey : CsvImport.getExternalEventId web.py row.fields = .ok key) :
      Inserts web s l ⟨eventId, run.integration.merchantId, run.integration.id, key, .row row⟩

theorem mem_recordEvent {events events' : Inbox} {c : Call Str Payload}
    {result : Event Str Payload × Bool} (h : recordEvent events c = .ok (result, events'))
    {e : Event Str Payload} (he : e ∈ events') : e ∈ events ∨ e = c.event := by
  rcases recordEvent_cases h with ⟨-, -, hinsert⟩ | ⟨-, -, rfl⟩
  · exact (Table.mem_insert? hinsert).mp he
  · exact .inl he

/-- A run of the import with no other rows than one that was there. -/
def Import.Within (run : Import) (imports : List Import) : Prop :=
  ∃ run' ∈ imports, run.integration = run'.integration ∧ run.tenant = run'.tenant ∧
    run.key = run'.key ∧ ∀ row ∈ run.rows, row ∈ run'.rows

inductive Stepped (web : Platform) (s : Store) (l : Label) : Store → Prop where
  | stay : Stepped web s l s
  | arrive (r : Request) :
      Stepped web s l { s with deliveries := s.deliveries ++ [.arrived r] }
  | lookUp (n : ℕ) (r : Request) (hl : l = .lookUp n) (hn : s.deliveries[n]? = some (.arrived r)) :
      Stepped web s l { s with deliveries := s.deliveries.set n (s.lookUp web r) }
  | answer (n : ℕ) (r : Request) (a : Answer) :
      Stepped web s l { s with deliveries := s.deliveries.set n (.answered r a) }
  | uninstall (n : ℕ) (r : Request) (i : Integration)
      (hn : s.deliveries[n]? = some (.decided r i .uninstall)) :
      Stepped web s l { s.disconnect ⟨i.id, none, some "app_uninstalled"⟩ with
        deliveries := s.deliveries.set n (.answered r .ok) }
  | insert (c : Call Str Payload) (result : Event Str Payload × Bool) (events : Inbox)
      (deliveries : List Delivery) (imports : List Import)
      (hrecord : recordEvent s.events c = .ok (result, events)) (hinserts : Inserts web s l c.event)
      (hdeliveries : ∀ r i d, .decided r i d ∈ deliveries → .decided r i d ∈ s.deliveries)
      (himports : ∀ run ∈ imports, run.Within s.imports) :
      Stepped web s l { s with events := events, deliveries := deliveries, imports := imports }
  | stage (m : Message) (raw : Bytes) (h : Stages web m raw s l)
      (hkey : ∀ m' ∈ s.messages, m'.key ≠ m.key) :
      Stepped web s l { s with
        objects := s.objects ++ [(m.key, raw)]
        messages := s.messages ++ [m] }
  | beginImport (m : Message) (raw : Bytes) (i : Integration) (broken : Bool) (hm : m ∈ s.messages)
      (hraw : (m.key, raw) ∈ s.objects) (hid : i.id = m.integrationId)
      (hmerchant : i.merchantId = m.merchantId) :
      Stepped web s l { s with
        imports := s.imports ++ [⟨i, m.merchantId, m.key, rowsOf web.files raw, broken⟩] }
  | endImport (n : ℕ) (objects : List (Str × Bytes)) (h : ∀ p ∈ objects, p ∈ s.objects) :
      Stepped web s l { s with objects := objects, imports := s.imports.eraseIdx n }
  | connect (i : Integration) (integrations : Table Integration Integration.Clash)
      (h : s.integrations.insert? { i with status := .connected } = some integrations) :
      Stepped web s l { s with integrations := integrations }
  | configure (integrationId : Uuid) (config : Config) :
      Stepped web s l (s.configure integrationId config)
  | disconnect (integrationId actor : Uuid) (hl : l = .disconnect integrationId actor) :
      Stepped web s l (s.disconnect ⟨integrationId, some actor, none⟩)

theorem Import.Within.refl {run : Import} {imports : List Import} (h : run ∈ imports) :
    run.Within imports := ⟨run, h, rfl, rfl, rfl, fun _ => id⟩

theorem disconnect_deliveries (row : Disconnected) :
    (s.disconnect row).deliveries = s.deliveries := by
  unfold Store.disconnect
  split
  · rfl
  · split <;> rfl

theorem not_decided_of_set {n : ℕ} {r r' : Request} {a : Answer} {i : Integration} {d : Decision}
    (h : Delivery.decided r i d ∈ s.deliveries.set n (.answered r' a)) :
    .decided r i d ∈ s.deliveries := by
  rcases List.mem_or_eq_of_mem_set h with h | h
  · exact h
  · cases h

theorem settle_stepped (n : ℕ) (eventId : Uuid) (hl : l = .settle n eventId) :
    Stepped web s l (s.settle n eventId) := by
  unfold Store.settle
  split
  case h_1 r i hn =>
    have hstep : Stepped web s l _ := .uninstall n r i hn
    rw [← disconnect_deliveries ⟨i.id, none, some "app_uninstalled"⟩] at hstep
    exact hstep
  case h_2 r i key payload hn =>
    split
    case h_1 hrecord =>
      exact .insert _ _ _ _ s.imports hrecord (.delivery n eventId r i key payload hl hn)
        (fun r' i' d h => not_decided_of_set h) fun run h => .refl h
    case h_2 => exact .answer n r .webhookRejected
    case h_3 => exact .answer n r .serverError
  case h_3 => exact .stay

theorem stage_stepped (merchantId integrationId : Uuid) (file : Option Bytes) (key : Str)
    (hl : l = .stage merchantId integrationId file key) :
    Stepped web s l (s.stage web merchantId integrationId file key) := by
  unfold Store.stage
  split
  case h_1 i raw hi =>
    split
    case h_1 => exact .stay
    case h_2 n hstart =>
      split
      case isTrue => exact .stay
      case isFalse hkey =>
        obtain ⟨hmem, hid, hmerchant⟩ := ownIntegration_eq hi
        have hcsv : i.provider = .csv := by
          by_contra hne
          simp [startCsvImport, hne, CsvRuns.refuse] at hstart
        rw [beq_iff_eq.mpr hcsv] at hstart
        refine .stage ⟨merchantId, integrationId, key⟩ raw
          ⟨i, n, hl, hmem, hid, hmerchant, hcsv, hstart⟩ fun m hm heq => hkey ?_
        exact List.any_eq_true.mpr ⟨m, hm, beq_iff_eq.mpr heq⟩
  case h_2 => exact .stay

theorem mem_of_lookup {objects : List (Str × Bytes)} {key : Str} {raw : Bytes}
    (h : objects.lookup key = some raw) : (key, raw) ∈ objects := by
  obtain ⟨before, after, heq, -⟩ := List.lookup_eq_some_iff.mp h
  rw [heq]
  simp

theorem beginImport_stepped (n : ℕ) : Stepped web s l (s.beginImport web n) := by
  unfold Store.beginImport
  split
  case h_1 => exact .stay
  case h_2 m hm =>
    split
    case h_1 raw i hraw hi =>
      split
      case h_1 => exact .stay
      case h_2 reading hreading =>
        obtain ⟨-, hid, hmerchant⟩ := ownIntegration_eq hi
        have hrows : reading.rows = rowsOf web.files raw := by
          rw [rowsOf, hreading]
          rfl
        rw [hrows]
        exact .beginImport m raw i reading.broken (List.mem_of_getElem? hm)
          (mem_of_lookup hraw) hid hmerchant
    case h_2 => exact .stay

theorem mem_deleteObject {key : Str} {p : Str × Bytes} (h : p ∈ (s.deleteObject key).objects) :
    p ∈ s.objects := (List.mem_filter.mp h).1

theorem importRow_stepped (n : ℕ) (eventId : Uuid) (hl : l = .importRow n eventId) :
    Stepped web s l (s.importRow web n eventId) := by
  unfold Store.importRow
  split
  case h_1 => exact .stay
  case h_2 run hn =>
    split
    case h_1 =>
      split
      · exact .endImport n s.objects fun p => id
      · exact .endImport n _ fun p => mem_deleteObject
    case h_2 row rows hrows =>
      split
      case h_1 => exact .endImport n s.objects fun p => id
      case h_2 key hkey =>
        split
        case h_1 hrecord =>
          refine .insert _ _ _ s.deliveries _ hrecord
            (.row n eventId run row rows key hl hn hrows hkey) (fun r i d => id) fun run' h => ?_
          rcases List.mem_or_eq_of_mem_set h with h | rfl
          · exact .refl h
          · refine ⟨run, List.mem_of_getElem? hn, rfl, rfl, rfl, fun row' hrow => ?_⟩
            rw [hrows]
            exact List.mem_cons_of_mem row hrow
        case h_2 => exact .endImport n _ fun p => mem_deleteObject
        case h_3 => exact .endImport n s.objects fun p => id

theorem step_stepped (s : Store) (l : Label) : Stepped web s l (s.step web l) := by
  cases l with
  | arrive r => exact .arrive r
  | lookUp n =>
    simp only [Store.step]
    split
    case h_1 r hn => exact .lookUp n r rfl hn
    case h_2 => exact .stay
  | settle n eventId => exact settle_stepped n eventId rfl
  | apiSale merchantId payload located eventId =>
    simp only [Store.step, Store.ingestApiSale]
    split
    case h_1 => exact .stay
    case h_2 i key fields hsale =>
      split
      case h_1 hrecord =>
        exact .insert _ _ _ s.deliveries s.imports hrecord
          (.api merchantId payload located eventId i key fields rfl hsale) (fun r i d => id)
          fun run h => .refl h
      case h_2 => exact .stay
  | stage merchantId integrationId file key => exact stage_stepped _ _ _ _ rfl
  | beginImport n => exact beginImport_stepped n
  | importRow n eventId => exact importRow_stepped n eventId rfl
  | killImport n => exact .endImport n s.objects fun p => id
  | connect i =>
    simp only [Store.step, Store.connect]
    split
    case h_1 integrations h => exact .connect i integrations h
    case h_2 => exact .stay
  | configure integrationId config => exact .configure integrationId config
  | disconnect integrationId actor => exact .disconnect integrationId actor rfl

end Steps

section Traced

variable (web : Platform) (ls : List Label)

def ComesIn (e : Event Str Payload) : Prop :=
  Earlier (Store.step web) .empty ls fun s l =>
    DeliversSale web e s l ∨ ApiSends web e s l ∨ StagesRow web e s l

def Looked (r : Request) (i : Integration) (d : Decision) (s : Store) (l : Label) : Prop :=
  ∃ n, l = .lookUp n ∧ s.deliveries[n]? = some (.arrived r) ∧ r.integrationId = some i.id ∧
    i ∈ s.integrations ∧ i.decide web r = d

def Explained (row : Disconnected) : Prop :=
  (∃ a, row.actor = some a ∧ row.reason = none ∧
    Earlier (Store.step web) .empty ls fun _ l => l = .disconnect row.integrationId a) ∨
  (row.actor = none ∧ row.reason = some "app_uninstalled" ∧
    Earlier (Store.step web) .empty ls (DeliversUninstall web row.integrationId))

def Staged (m : Message) (raw : Bytes) : Prop :=
  Earlier (Store.step web) .empty ls (Stages web m raw)

structure Sound (s : Store) : Prop where
  events : ∀ e ∈ s.events, ComesIn web ls e
  decided : ∀ r i d, .decided r i d ∈ s.deliveries →
    Earlier (Store.step web) .empty ls (Looked web r i d)
  staged : ∀ m ∈ s.messages, ∀ p ∈ s.objects, p.1 = m.key → Staged web ls m p.2
  keys : ∀ p ∈ s.objects, ∃ m ∈ s.messages, m.key = p.1
  imports : ∀ run ∈ s.imports, run.integration.merchantId = run.tenant ∧
    ∃ raw, Staged web ls ⟨run.tenant, run.integration.id, run.key⟩ raw ∧
      ∀ row ∈ run.rows, row ∈ rowsOf web.files raw
  audit : ∀ row ∈ s.audit, Explained web ls row

end Traced

section Run

variable {web : Platform} {ls : List Label}

theorem Sound.append (h : Sound web ls s) (ls' : List Label) : Sound web (ls ++ ls') s where
  events e he := (h.events e he).append ls'
  decided r i d hd := (h.decided r i d hd).append ls'
  staged m hm p hp hkey := (h.staged m hm p hp hkey).append ls'
  keys := h.keys
  imports run hr := by
    obtain ⟨hmerchant, raw, hstaged, hrows⟩ := h.imports run hr
    exact ⟨hmerchant, raw, hstaged.append ls', hrows⟩
  audit row hrow := by
    rcases h.audit row hrow with ⟨a, ha, hreason, hl⟩ | ⟨ha, hreason, hl⟩
    · exact .inl ⟨a, ha, hreason, hl.append ls'⟩
    · exact .inr ⟨ha, hreason, hl.append ls'⟩

theorem Looked.decided {r : Request} {i : Integration} {d : Decision} {s : Store} {l : Label}
    (h : Looked web r i d s l) : i.decide web r = d := by
  obtain ⟨n, hl, hn, hid, hi, hd⟩ := h
  exact hd

theorem Looked.verified {r : Request} {i : Integration} {d : Decision} {s : Store} {l : Label}
    (h : Looked web r i d s l) (hprovider : i.provider = r.provider)
    (hverify : i.verify web r = true) : LooksUp web r i s l := by
  obtain ⟨n, hl, hn, hid, hi, -⟩ := h
  exact ⟨n, hl, hn, hid, hi, hprovider, hverify⟩

theorem apiSale_eq {merchantId : Uuid} {payload : Json} {located : Bool} {i : Integration}
    {key : Str} {fields : Dict}
    (h : s.apiSale web merchantId payload located = some (i, key, fields)) :
    payload = .dict fields ∧ located = true ∧ i ∈ s.integrations ∧ i.provider = .api ∧
      i.status = .connected ∧ i.merchantId = merchantId ∧
      (∃ sale, Api.normalize web.py (Api.parse fields) = .ok sale) ∧
      Api.getExternalEventId web.py fields = .ok key := by
  unfold Store.apiSale at h
  split at h
  case h_1 fields' =>
    split at h
    · cases h
    case h_2 i' hi =>
      obtain ⟨hmem, hkind⟩ := Table.mem_of_find? hi
      simp only [Bool.and_eq_true, beq_iff_eq] at hkind
      split at h
      · cases h
      case h_2 sale hsale =>
        split at h
        · cases h
        case isFalse hlocated =>
          split at h
          · cases h
          case h_2 key' hkey =>
            cases h
            exact ⟨rfl, by simpa using hlocated, hmem, hkind.1.1, hkind.1.2, hkind.2, ⟨sale, hsale⟩,
              hkey⟩
  case h_2 => cases h

theorem Sound.comesIn (h : Sound web ls (run (Store.step web) .empty ls)) {e : Event Str Payload}
    (he : Inserts web (run (Store.step web) .empty ls) l e) : ComesIn web (ls ++ [l]) e := by
  cases he with
  | delivery n eventId r i key payload hl hn =>
    have hlooked := h.decided r i _ (List.mem_of_getElem? hn)
    apply (hlooked.append [l]).mono
    intro s l hs
    obtain ⟨hprovider, hverify, hstatus, hsale, hloads, hkey⟩ := decide_eq_record hs.decided
    exact .inl ⟨r, i, payload, hs.verified hprovider hverify, hstatus, hsale, hloads, hkey, rfl,
      rfl, rfl⟩
  | api merchantId payload located eventId i key fields hl hsale =>
    obtain ⟨rfl, rfl, hi, hprovider, hstatus, hmerchant, ⟨sale, hsale⟩, hkey⟩ := apiSale_eq hsale
    apply Earlier.last
    exact .inr (.inl ⟨fields, eventId, i, sale, by rw [hl, hmerchant], hi, hprovider, hstatus, rfl,
      hsale, hkey, rfl, rfl⟩)
  | row n eventId run row rows key hl hn hrows hkey =>
    obtain ⟨hmerchant, raw, hstaged, hall⟩ := h.imports run (List.mem_of_getElem? hn)
    have hrow : row ∈ rowsOf web.files raw := hall row (by rw [hrows]; exact List.mem_cons_self)
    apply (hstaged.append [l]).mono
    intro s l hs
    rw [← hmerchant] at hs
    exact .inr (.inr ⟨run.key, raw, row, hs, hrow, rfl, hkey⟩)

theorem audit_disconnect {row row' : Disconnected} (h : row' ∈ (s.disconnect row).audit) :
    row' ∈ s.audit ∨ row' = row := by
  unfold Store.disconnect at h
  split at h
  · exact .inl h
  · split at h
    · exact .inl h
    · simpa using h

theorem disconnect_rest (row : Disconnected) :
    (s.disconnect row).events = s.events ∧ (s.disconnect row).deliveries = s.deliveries ∧
      (s.disconnect row).imports = s.imports ∧ (s.disconnect row).objects = s.objects ∧
      (s.disconnect row).messages = s.messages := by
  unfold Store.disconnect
  split
  · exact ⟨rfl, rfl, rfl, rfl, rfl⟩
  · split <;> exact ⟨rfl, rfl, rfl, rfl, rfl⟩

theorem Sound.disconnect (h : Sound web ls s) {row : Disconnected} (hrow : Explained web ls row) :
    Sound web ls (s.disconnect row) := by
  obtain ⟨hevents, hdeliveries, himports, hobjects, hmessages⟩ := disconnect_rest (s := s) row
  constructor
  · rw [hevents]
    exact h.events
  · rw [hdeliveries]
    exact h.decided
  · rw [hobjects, hmessages]
    exact h.staged
  · rw [hobjects, hmessages]
    exact h.keys
  · rw [himports]
    exact h.imports
  · intro row' hrow'
    rcases audit_disconnect hrow' with hrow' | rfl
    · exact h.audit row' hrow'
    · exact hrow

theorem Stepped.sound {s' : Store} (hstep : Stepped web (run (Store.step web) .empty ls) l s')
    (h : Sound web ls (run (Store.step web) .empty ls)) : Sound web (ls ++ [l]) s' := by
  have happ := h.append [l]
  cases hstep with
  | stay => exact happ
  | arrive r =>
    refine { happ with decided := fun r' i d hd => ?_ }
    rcases List.mem_append.mp hd with hd | hd
    · exact happ.decided r' i d hd
    · cases List.mem_singleton.mp hd
  | lookUp n r hl hn =>
    refine { happ with decided := fun r' i d hd => ?_ }
    rcases List.mem_or_eq_of_mem_set hd with hd | hd
    · exact happ.decided r' i d hd
    · obtain ⟨rfl, hid, hi, hdecide⟩ := lookUp_decided hd.symm
      exact Earlier.last ⟨n, hl, hn, hid, hi, hdecide⟩
  | answer n r a =>
    exact { happ with
      decided := fun r' i d hd => happ.decided r' i d (not_decided_of_set hd) }
  | uninstall n r i hn =>
    have hlooked := h.decided r i _ (List.mem_of_getElem? hn)
    have hexplained : Explained web (ls ++ [l]) ⟨i.id, none, some "app_uninstalled"⟩ := by
      refine .inr ⟨rfl, rfl, (hlooked.append [l]).mono fun s l hs => ?_⟩
      obtain ⟨hprovider, hverify, huninstall, hwebhook, payload, hloads, hmatches⟩ :=
        decide_eq_uninstall hs.decided
      exact ⟨r, i, payload, hs.verified hprovider hverify, rfl, huninstall, hwebhook, hloads,
        hmatches⟩
    exact { happ.disconnect hexplained with
      decided := fun r' i' d hd => happ.decided r' i' d (not_decided_of_set hd) }
  | insert c result events deliveries imports hrecord hinserts hdeliveries himports =>
    refine { happ with
      events := fun e he => ?_
      decided := fun r i d hd => happ.decided r i d (hdeliveries r i d hd)
      imports := fun run hr => ?_ }
    · rcases mem_recordEvent hrecord he with he | rfl
      · exact happ.events e he
      · exact h.comesIn hinserts
    · obtain ⟨run', hr', hintegration, htenant, hkey, hrows⟩ := himports run hr
      obtain ⟨hmerchant, raw, hstaged, hall⟩ := happ.imports run' hr'
      rw [hintegration, htenant, hkey]
      exact ⟨hmerchant, raw, hstaged, fun row hrow => hall row (hrows row hrow)⟩
  | stage m raw hstages hkey =>
    refine { happ with staged := fun m' hm p hp heq => ?_, keys := fun p hp => ?_ }
    · rcases List.mem_append.mp hm with hm | hm
      · rcases List.mem_append.mp hp with hp | hp
        · exact happ.staged m' hm p hp heq
        · obtain rfl := List.mem_singleton.mp hp
          exact absurd heq.symm (hkey m' hm)
      · obtain rfl := List.mem_singleton.mp hm
        rcases List.mem_append.mp hp with hp | hp
        · obtain ⟨m'', hm'', hk⟩ := happ.keys p hp
          exact absurd (hk.trans heq) (hkey m'' hm'')
        · obtain rfl := List.mem_singleton.mp hp
          exact Earlier.last hstages
    · rcases List.mem_append.mp hp with hp | hp
      · obtain ⟨m', hm', hk⟩ := happ.keys p hp
        exact ⟨m', List.mem_append_left _ hm', hk⟩
      · obtain rfl := List.mem_singleton.mp hp
        exact ⟨m, List.mem_append_right _ (List.mem_singleton_self _), rfl⟩
  | beginImport m raw i broken hm hraw hid hmerchant =>
    refine { happ with imports := fun run hr => ?_ }
    rcases List.mem_append.mp hr with hr | hr
    · exact happ.imports run hr
    · obtain rfl := List.mem_singleton.mp hr
      have hstaged := happ.staged m hm (m.key, raw) hraw rfl
      refine ⟨hmerchant, raw, ?_, fun row => id⟩
      rw [hid]
      exact hstaged
  | endImport n objects hobjects =>
    exact { happ with
      staged := fun m hm p hp => happ.staged m hm p (hobjects p hp)
      keys := fun p hp => happ.keys p (hobjects p hp)
      imports := fun run hr => happ.imports run (List.mem_of_mem_eraseIdx hr) }
  | connect i integrations hinsert => exact { happ with }
  | configure integrationId config => exact { happ with }
  | disconnect integrationId actor hl =>
    exact happ.disconnect (.inl ⟨actor, rfl, rfl, Earlier.last hl⟩)

theorem empty_sound (web : Platform) : Sound web [] .empty where
  events e he := by cases he
  decided r i d hd := by cases hd
  staged m hm := by cases hm
  keys p hp := by cases hp
  imports run hr := by cases hr
  audit row hrow := by cases hrow

theorem run_sound (web : Platform) (ls : List Label) :
    Sound web ls (run (Store.step web) .empty ls) := by
  have hrun : run (Store.step web) .empty ls = run (Store.step web) .empty ls ∧
      Sound web ls (run (Store.step web) .empty ls) := by
    apply run_history (P := fun h s => s = run (Store.step web) .empty h ∧ Sound web h s)
    · exact ⟨rfl, empty_sound web⟩
    · rintro h s l ⟨rfl, hs⟩
      exact ⟨(run_snoc _ _ _ _).symm, (step_stepped _ l).sound hs⟩
  exact hrun.2

/-- Every row of the inbox is what a signed delivery, a request with an API key or a row of an
accepted file says. -/
theorem events_traced (web : Platform) (ls : List Label) (e : Event Str Payload)
    (he : e ∈ (run (Store.step web) .empty ls).events) :
    Earlier (Store.step web) .empty ls fun s l =>
      DeliversSale web e s l ∨ ApiSends web e s l ∨ StagesRow web e s l :=
  (run_sound web ls).events e he

def shopIntegration : Integration where
  id := 1
  merchantId := 2
  status := .connected
  secret := none
  config := .shopify (some (text "a.myshopify.com")) (some (text "5"))

def plainPlatform : Platform where
  py := plainRuntime
  loads _ := some (.dict [])
  digest _ _ _ := text "00"
  shopifyClientSecret := text "secret"
  shopifyClientSecretPrevious := []
  files := ⟨fun _ => none, fun _ => none⟩

def paidOrder : Request where
  provider := .shopify
  integrationId := some 1
  signature := []
  shopifyHmac := text "00"
  shopDomain := text "a.myshopify.com"
  topic := some (text "orders/paid")
  webhookId := text "w1"
  body := [123, 125]

theorem events_traced_order :
    Earlier (Store.step plainPlatform) .empty
      [.connect shopIntegration, .arrive paidOrder, .lookUp 0, .settle 0 7] fun s l =>
      DeliversSale plainPlatform ⟨7, 2, 1, text "w1", .json []⟩ s l ∨
        ApiSends plainPlatform ⟨7, 2, 1, text "w1", .json []⟩ s l ∨
        StagesRow plainPlatform ⟨7, 2, 1, text "w1", .json []⟩ s l :=
  events_traced plainPlatform [.connect shopIntegration, .arrive paidOrder, .lookUp 0, .settle 0 7]
    ⟨7, 2, 1, text "w1", .json []⟩ (List.mem_singleton_self _)

end Run

section Disconnects

theorem Integration.Clash.symm {a b : Integration} (h : a.Clash b) : b.Clash a := by
  rcases h with h | ⟨ha, hb, hmerchant, hsa, hsb⟩
  · exact .inl h.symm
  · exact .inr ⟨hb, ha, hmerchant.symm, hsb, hsa⟩

theorem integration_eq_of_id {a b : Integration} (ha : a ∈ s.integrations) (hb : b ∈ s.integrations)
    (h : a.id = b.id) : a = b :=
  Table.eq_of_clash (fun _ _ => Integration.Clash.symm) ha hb (.inl h)

def Store.disconnects (s : Store) (id : Uuid) : List Disconnected :=
  s.audit.filter fun row => row.integrationId == id

/-- A disconnected integration has one audit row and no credentials, and the others have no row. -/
structure Audited (s : Store) : Prop where
  known : ∀ row ∈ s.audit, ∃ i ∈ s.integrations, i.id = row.integrationId
  once : ∀ i ∈ s.integrations,
    (s.disconnects i.id).length = if i.status = .disconnected then 1 else 0
  cleared : ∀ i ∈ s.integrations, i.status = .disconnected → i.secret = none

theorem disconnects_unknown (h : Audited s) {id : Uuid} (hid : ∀ i ∈ s.integrations, i.id ≠ id) :
    s.disconnects id = [] := by
  apply List.filter_eq_nil_iff.mpr
  intro row hrow heq
  obtain ⟨i, hi, hrow⟩ := h.known row hrow
  exact hid i hi (hrow.trans (beq_iff_eq.mp heq))

theorem Audited.disconnect (h : Audited s) (row : Disconnected) : Audited (s.disconnect row) := by
  unfold Store.disconnect
  split
  case h_1 => exact h
  case h_2 i hfound =>
    split
    case isTrue => exact h
    case isFalse hstatus =>
      obtain ⟨hi, hid⟩ := Table.mem_of_find? hfound
      have hid : i.id = row.integrationId := beq_iff_eq.mp hid
      constructor
      · intro row' hrow
        have hknown : ∃ i ∈ s.integrations, i.id = row'.integrationId := by
          rcases List.mem_append.mp hrow with hrow | hrow
          · exact h.known row' hrow
          · rw [List.mem_singleton.mp hrow]
            exact ⟨i, hi, hid⟩
        obtain ⟨a, ha, haid⟩ := hknown
        refine ⟨_, (Table.mem_update (h := disconnect_clash)).mpr ⟨a, ha, rfl⟩, ?_⟩
        split <;> exact haid
      · intro i' hi'
        obtain ⟨a, ha, rfl⟩ := (Table.mem_update (h := disconnect_clash)).mp hi'
        have honce := h.once a ha
        split
        case isTrue haid =>
          obtain rfl := integration_eq_of_id ha hi (haid.trans hid.symm)
          rw [if_neg hstatus] at honce
          simp [Store.disconnects, Integration.disconnect, List.filter_append, hid] at honce ⊢
          exact honce
        case isFalse haid =>
          rw [← honce]
          simp [Store.disconnects, List.filter_append, Ne.symm haid]
      · intro i' hi'
        obtain ⟨a, ha, rfl⟩ := (Table.mem_update (h := disconnect_clash)).mp hi'
        split
        case isTrue => exact fun _ => rfl
        case isFalse => exact h.cleared a ha

theorem Audited.connect (h : Audited s) {i : Integration}
    {integrations : Table Integration Integration.Clash}
    (hinsert : s.integrations.insert? { i with status := .connected } = some integrations) :
    Audited { s with integrations := integrations } where
  known row hrow := by
    obtain ⟨a, ha, hid⟩ := h.known row hrow
    exact ⟨a, (Table.mem_insert? hinsert).mpr (.inl ha), hid⟩
  once a ha := by
    rcases (Table.mem_insert? hinsert).mp ha with ha | rfl
    · exact h.once a ha
    · have hfresh : ∀ b ∈ s.integrations, b.id ≠ i.id := fun b hb heq =>
        (Table.insert?_eq_some.mp hinsert).1 b hb (.inl heq)
      have hnone : s.disconnects i.id = [] := disconnects_unknown h hfresh
      exact congrArg List.length hnone
  cleared a ha := by
    rcases (Table.mem_insert? hinsert).mp ha with ha | rfl
    · exact h.cleared a ha
    · intro hstatus
      cases hstatus

theorem Audited.configure (h : Audited s) (id : Uuid) (config : Config) :
    Audited (s.configure id config) where
  known row hrow := by
    obtain ⟨a, ha, hid⟩ := h.known row hrow
    refine ⟨_, (Table.mem_update (h := configure_clash)).mpr ⟨a, ha, rfl⟩, ?_⟩
    split <;> exact hid
  once i hi := by
    obtain ⟨a, ha, rfl⟩ := (Table.mem_update (h := configure_clash)).mp hi
    have honce := h.once a ha
    split <;> exact honce
  cleared i hi := by
    obtain ⟨a, ha, rfl⟩ := (Table.mem_update (h := configure_clash)).mp hi
    have hcleared := h.cleared a ha
    split <;> exact hcleared

theorem Stepped.audited {s' : Store} (hstep : Stepped web s l s') (h : Audited s) :
    Audited s' := by
  cases hstep with
  | uninstall n r i hn =>
    obtain ⟨hknown, honce, hcleared⟩ := h.disconnect ⟨i.id, none, some "app_uninstalled"⟩
    exact ⟨hknown, honce, hcleared⟩
  | connect i integrations hinsert => exact h.connect hinsert
  | configure integrationId config => exact h.configure integrationId config
  | disconnect integrationId actor hl => exact h.disconnect _
  | _ => exact ⟨h.known, h.once, h.cleared⟩

/-- An integration is disconnected once, by a manager or by a signed delivery that its app is
uninstalled, and it loses its credentials with it. -/
theorem disconnects_traced (web : Platform) (ls : List Label) :
    (∀ row ∈ (run (Store.step web) .empty ls).audit, Explained web ls row) ∧
      ∀ i ∈ (run (Store.step web) .empty ls).integrations,
        ((run (Store.step web) .empty ls).disconnects i.id).length =
          (if i.status = .disconnected then 1 else 0) ∧
        (i.status = .disconnected → i.secret = none) := by
  have haudited : Audited (run (Store.step web) .empty ls) := by
    apply run_history (P := fun _ s => Audited s)
    · constructor
      · intro row hrow
        cases hrow
      · intro i hi
        cases hi
      · intro i hi
        cases hi
    · intro _ s l hs
      exact (step_stepped s l).audited hs
  exact ⟨(run_sound web ls).audit, fun i hi => ⟨haudited.once i hi, haudited.cleared i hi⟩⟩

end Disconnects

end ReviewFlow.Integrations.Intake
