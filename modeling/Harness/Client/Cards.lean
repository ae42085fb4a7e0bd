/-
# Harness.Client.Cards — the requests the two programs show as pending, with what is on them.

`Convergence` is about which ids are pending. A card also has a kind and a summary, or a text, and the two
programs choose differently when an id is announced again before it is resolved: the map of `GetSnapshot`
takes the newer request, `dedupeBy` keeps the older one. `applyEvent` passes over a request without an id,
`GetSnapshot` lists it.

Both are folds over the same moves, so `keepFirst_agrees_iff` gives the logs on which they agree.
-/
import Harness.Client.Convergence
import Harness.Lib.Outstanding

namespace Harness.Client

open Lib Hub
open Wire (HostBody HostEvent HostLog PermissionRequestBody PermissionResolvedBody QuestionBody
  QuestionResolvedBody)

/-! ## The moves of a log -/

def permissionMove (ev : Wire.EventPayload) : Move String Wire.PermissionView :=
  match ev.kind with
  | .permissionRequest =>
      let body := PermissionRequestBody.decode ev.payload
      .opens ⟨body.requestID, body.kind, body.summary⟩
  | .permissionResolved => .closes (PermissionResolvedBody.decode ev.payload).requestID
  | _ => .passes

def questionMove (ev : Wire.EventPayload) : Move String Wire.QuestionView :=
  match ev.kind with
  | .question =>
      let body := QuestionBody.decode ev.payload
      .opens ⟨body.questionID, body.text⟩
  | .questionResolved => .closes (QuestionResolvedBody.decode ev.payload).questionID
  | _ => .passes

/-- The permission requests of `r` in the log since `r` was last resolved, and the questions of `q`. -/
def openPermissions (r : String) (es : List Wire.EventPayload) : List Wire.PermissionView :=
  outstanding Wire.PermissionView.requestID permissionMove r es

def openQuestions (q : String) (es : List Wire.EventPayload) : List Wire.QuestionView :=
  outstanding Wire.QuestionView.questionID questionMove q es

/-- **`Unambiguous es`** — every id that is left open has a name, and its first request says what its last
one says. -/
structure Unambiguous (es : List Wire.EventPayload) : Prop where
  permissions : ∀ r, openPermissions r es ≠ [] →
    r ≠ "" ∧ (openPermissions r es).head? = (openPermissions r es).getLast?
  questions : ∀ q, openQuestions q es ≠ [] →
    q ≠ "" ∧ (openQuestions q es).head? = (openQuestions q es).getLast?

/-- **`SameCards s snap`** — the client shows what the stored snapshot says, card by card. -/
structure SameCards (s : SessionState) (snap : Snapshot) : Prop where
  status : s.status = snap.status
  mode : s.mode = snap.mode
  permissions : ∀ v, v ∈ s.pendingPermissions ↔ v ∈ snap.pendingPermissions.map permissionView
  questions : ∀ v, v ∈ s.pendingQuestions ↔ v ∈ snap.pendingQuestions.map questionView

/-! ## The host keeps the last -/

theorem mem_values {V : Type} {m : GoMap V} {v : V} : v ∈ m.values ↔ ∃ k, m.lookup k = some v := by
  rw [GoMap.values, List.mem_map]
  constructor
  · rintro ⟨⟨k, v⟩, he, rfl⟩
    exact ⟨k, AList.mem_lookup_iff.mpr he⟩
  · rintro ⟨k, hk⟩
    exact ⟨⟨k, v⟩, AList.mem_lookup_iff.mp hk, rfl⟩

/-- `m[k] = v` and `delete(m, k)`, as functions of the key. -/
theorem lookup_insert {V : Type} (m : GoMap V) (k : String) (v : V) :
    (fun j => (m.insert k v).lookup j) = Function.update (fun j => m.lookup j) k (some v) := by
  funext j
  by_cases hj : j = k
  · subst hj
    rw [AList.lookup_insert, Function.update_self]
  · rw [AList.lookup_insert_ne hj, Function.update_of_ne hj]

theorem lookup_erase {V : Type} (m : GoMap V) (k : String) :
    (fun j => (m.erase k).lookup j) = Function.update (fun j => m.lookup j) k none := by
  funext j
  by_cases hj : j = k
  · subst hj
    rw [AList.lookup_erase, Function.update_self]
  · rw [AList.lookup_erase_ne hj, Function.update_of_ne hj]

theorem pending_step (acc : Store.SnapshotFold) (ev : Wire.EventPayload) :
    (fun r => (acc.step ev).pending.lookup r) =
      keepLast Wire.PermissionView.requestID permissionMove (fun r => acc.pending.lookup r) ev := by
  unfold Store.SnapshotFold.step keepLast permissionMove
  cases ev.kind with
  | permissionRequest => exact lookup_insert ..
  | permissionResolved => exact lookup_erase ..
  | _ => rfl

theorem pendingQ_step (acc : Store.SnapshotFold) (ev : Wire.EventPayload) :
    (fun q => (acc.step ev).pendingQ.lookup q) =
      keepLast Wire.QuestionView.questionID questionMove (fun q => acc.pendingQ.lookup q) ev := by
  unfold Store.SnapshotFold.step keepLast questionMove
  cases ev.kind with
  | question => exact lookup_insert ..
  | questionResolved => exact lookup_erase ..
  | _ => rfl

/-- A fold carried along a view. -/
theorem foldl_view {S T E : Type} {f : S → E → S} {g : T → E → T} (view : S → T)
    (h : ∀ s e, view (f s e) = g (view s) e) (es : List E) (s : S) :
    view (es.foldl f s) = es.foldl g (view s) := by
  induction es generalizing s with
  | nil => rfl
  | cons e es ih =>
      rw [List.foldl_cons, ih, h]
      rfl

/-- What `GetSnapshot` lists: the last open request of each id. -/
theorem mem_snapshotOf_permissions (sid : String) (row : Session) (es : List Wire.EventPayload)
    (v : Wire.PermissionView) : v ∈ (Store.snapshotOf sid row es).pendingPermissions ↔
      ∃ r, es.foldl (keepLast Wire.PermissionView.requestID permissionMove) (fun _ => none) r = some v := by
  have hview := foldl_view (fun acc : Store.SnapshotFold => fun r => acc.pending.lookup r) pending_step es
    ⟨row.status, "", row.lastSeq, ∅, ∅⟩
  exact mem_values.trans (exists_congr fun r => by rw [show _ = _ from congrFun hview r]; rfl)

theorem mem_snapshotOf_questions (sid : String) (row : Session) (es : List Wire.EventPayload)
    (v : Wire.QuestionView) : v ∈ (Store.snapshotOf sid row es).pendingQuestions ↔
      ∃ q, es.foldl (keepLast Wire.QuestionView.questionID questionMove) (fun _ => none) q = some v := by
  have hview := foldl_view (fun acc : Store.SnapshotFold => fun q => acc.pendingQ.lookup q) pendingQ_step es
    ⟨row.status, "", row.lastSeq, ∅, ∅⟩
  exact mem_values.trans (exists_congr fun q => by rw [show _ = _ from congrFun hview q]; rfl)

/-! ## The client keeps the first -/

section Dedupe

variable {T V : Type} {key : T → JsValue} {view : V → T} {id : V → String}

theorem any_strictEq_str (seen : List String) (a : String) :
    ((seen.map JsValue.str).any fun v => (JsValue.str a).strictEq v) = decide (a ∈ seen) := by
  rw [List.any_map, Bool.eq_iff_iff, List.any_eq_true, decide_eq_true_iff]
  simp only [Function.comp, strictEq_str_iff]
  exact ⟨fun ⟨b, hb, hab⟩ => hab ▸ hb, fun ha => ⟨a, ha, rfl⟩⟩

/-- Views of distinct keys stay, and one more stays when its key is new. -/
theorem dedupeByFrom_concat (hkey : ∀ v, key (view v) = .str (id v)) (w : V) :
    ∀ (vs : List V) (seen : List String), (vs.map id).Nodup → (∀ v ∈ vs, id v ∉ seen) →
      dedupeByFrom key (seen.map JsValue.str) (vs.map view ++ [view w]) =
        (if id w ∈ seen ∨ ∃ v ∈ vs, id v = id w then vs else vs ++ [w]).map view := by
  intro vs
  induction vs with
  | nil =>
      intro seen _ _
      show (if _ then _ else _) = _
      rw [hkey, any_strictEq_str]
      by_cases hw : id w ∈ seen <;> simp [hw, dedupeByFrom]
  | cons v vs ih =>
      intro seen hnodup hseen
      rw [List.map_cons, List.nodup_cons] at hnodup
      have hv : id v ∉ seen := hseen v List.mem_cons_self
      have hrest : ∀ u ∈ vs, id u ∉ id v :: seen := by
        intro u hu hmem
        rcases List.mem_cons.mp hmem with heq | hmem
        · exact hnodup.1 (heq ▸ List.mem_map_of_mem hu)
        · exact hseen u (List.mem_cons_of_mem v hu) hmem
      have htail := ih (id v :: seen) hnodup.2 hrest
      show (if _ then _ else _) = _
      rw [hkey, any_strictEq_str, decide_eq_false hv, if_neg Bool.false_ne_true]
      refine (congrArg (view v :: ·) htail).trans ?_
      have hcond : (id w ∈ seen ∨ ∃ u ∈ v :: vs, id u = id w) ↔
          (id w ∈ id v :: seen ∨ ∃ u ∈ vs, id u = id w) := by
        simp only [List.mem_cons, exists_eq_or_imp]
        constructor
        · rintro (h | h | h)
          · exact .inl (.inr h)
          · exact .inl (.inl h.symm)
          · exact .inr h
        · rintro ((h | h) | h)
          · exact .inr (.inl h.symm)
          · exact .inl h
          · exact .inr (.inr h)
      by_cases h : id w ∈ id v :: seen ∨ ∃ u ∈ vs, id u = id w
      · rw [if_pos h, if_pos (hcond.mpr h)]
        rfl
      · rw [if_neg h, if_neg (mt hcond.mp h)]
        rfl

variable (key view id)

theorem dedupeBy_concat (hkey : ∀ v, key (view v) = .str (id v)) {vs : List V}
    (hnodup : (vs.map id).Nodup) (w : V) :
    dedupeBy key (vs.map view ++ [view w]) =
      (if vs.any fun v => decide (id v = id w) then vs else vs ++ [w]).map view := by
  refine (dedupeByFrom_concat hkey w vs [] hnodup fun _ _ => List.not_mem_nil).trans ?_
  simp

theorem filter_view (hkey : ∀ v, key (view v) = .str (id v)) (vs : List V) (k : String) :
    ((vs.map view).filter fun x => !(key x).strictEq (.str k)) =
      (vs.filter fun v => decide (id v ≠ k)).map view := by
  rw [List.filter_map]
  refine congrArg (List.map view) (List.filter_congr fun v _ => ?_)
  simp [hkey, strictEq_str_str]

end Dedupe

/-- The empty id is passed over. -/
def named (id : String) : Bool := decide (id ≠ "")

theorem pendingPermissions_applyEvent {s : SessionState} {vs : List Wire.PermissionView}
    (hs : s.pendingPermissions = vs.map permissionView) (hnodup : (vs.map (·.requestID)).Nodup)
    {ev : Wire.EventPayload} (hev : HostEvent ev) :
    (applyEvent s (received ev)).pendingPermissions =
      (keepFirst Wire.PermissionView.requestID
        (fun ev => (permissionMove ev).only Wire.PermissionView.requestID named) vs ev).map
        permissionView := by
  obtain ⟨b, hk, hp⟩ := hev
  rw [applyEvent_received s hk hp, keepFirst, permissionMove, hk, hp]
  cases b with
  | permissionRequest b =>
      rw [applyBody]
      by_cases hid : b.requestID = ""
      · rw [if_pos hid]
        simp [HostBody.kind, HostBody.toJson, Move.only, named, hid, hs]
      · rw [if_neg hid]
        have hdedupe := dedupeBy_concat PermissionView.requestId permissionView
          Wire.PermissionView.requestID (fun _ => rfl) hnodup ⟨b.requestID, b.kind, b.summary⟩
        rw [← hs] at hdedupe
        refine Eq.trans hdedupe ?_
        simp [HostBody.kind, HostBody.toJson, Move.only, named, hid]
  | permissionResolved b =>
      have hfilter := filter_view PermissionView.requestId permissionView
        Wire.PermissionView.requestID (fun _ => rfl) vs b.requestID
      rw [← hs] at hfilter
      exact hfilter
  | textDelta b =>
      rw [applyBody]
      split <;> exact hs
  | question b =>
      rw [applyBody]
      split <;> exact hs
  | _ => exact hs

theorem pendingQuestions_applyEvent {s : SessionState} {vs : List Wire.QuestionView}
    (hs : s.pendingQuestions = vs.map questionView) (hnodup : (vs.map (·.questionID)).Nodup)
    {ev : Wire.EventPayload} (hev : HostEvent ev) :
    (applyEvent s (received ev)).pendingQuestions =
      (keepFirst Wire.QuestionView.questionID
        (fun ev => (questionMove ev).only Wire.QuestionView.questionID named) vs ev).map
        questionView := by
  obtain ⟨b, hk, hp⟩ := hev
  rw [applyEvent_received s hk hp, keepFirst, questionMove, hk, hp]
  cases b with
  | question b =>
      rw [applyBody]
      by_cases hid : b.questionID = ""
      · rw [if_pos hid]
        simp [HostBody.kind, HostBody.toJson, Move.only, named, hid, hs]
      · rw [if_neg hid]
        have hdedupe := dedupeBy_concat QuestionView.questionId questionView
          Wire.QuestionView.questionID (fun _ => rfl) hnodup ⟨b.questionID, b.text⟩
        rw [← hs] at hdedupe
        refine Eq.trans hdedupe ?_
        simp [HostBody.kind, HostBody.toJson, Move.only, named, hid]
  | questionResolved b =>
      have hfilter := filter_view QuestionView.questionId questionView
        Wire.QuestionView.questionID (fun _ => rfl) vs b.questionID
      rw [← hs] at hfilter
      exact hfilter
  | textDelta b =>
      rw [applyBody]
      split <;> exact hs
  | permissionRequest b =>
      rw [applyBody]
      split <;> exact hs
  | _ => exact hs

/-! ## The two together -/

/-- **`Derived s es`** — the client state is what the folds say of the log. -/
structure Derived (s : SessionState) (es : List Wire.EventPayload) : Prop where
  status : s.status = replay writes blank es .status
  mode : s.mode = replay writes blank es .mode
  permissions : s.pendingPermissions = (es.foldl (keepFirst Wire.PermissionView.requestID
    fun ev => (permissionMove ev).only Wire.PermissionView.requestID named) []).map permissionView
  questions : s.pendingQuestions = (es.foldl (keepFirst Wire.QuestionView.questionID
    fun ev => (questionMove ev).only Wire.QuestionView.questionID named) []).map questionView

theorem applyAll_concat (s : SessionState) (es : List Wire.EventPayload) (ev : Wire.EventPayload) :
    applyAll s (es ++ [ev]) = applyEvent (applyAll s es) (received ev) :=
  List.foldl_concat ..

theorem derived_applyAll {es : List Wire.EventPayload} (hhost : ∀ ev ∈ es, HostEvent ev) :
    Derived (applyAll newSessionState es) es := by
  induction es using List.reverseRecOn with
  | nil => exact ⟨rfl, rfl, rfl, rfl⟩
  | append_singleton es ev ih =>
      have h := ih fun e he => hhost e (List.mem_append_left _ he)
      have hev : HostEvent ev := hhost ev (List.mem_append_right _ List.mem_cons_self)
      rw [applyAll_concat]
      refine ⟨?_, ?_, ?_, ?_⟩
      · rw [applyEvent_status _ hev, h.status, replay_append]
        rfl
      · rw [applyEvent_mode _ hev, h.mode, replay_append]
        rfl
      · rw [pendingPermissions_applyEvent h.permissions (foldl_keepFirst_nodup es) hev, List.foldl_concat]
      · rw [pendingQuestions_applyEvent h.questions (foldl_keepFirst_nodup es) hev, List.foldl_concat]

/-- Views that are equal show the same card. -/
theorem permissionView_injective : Function.Injective permissionView := by
  rintro ⟨r, k, m⟩ ⟨r', k', m'⟩ h
  simpa [permissionView] using h

theorem questionView_injective : Function.Injective questionView := by
  rintro ⟨q, t⟩ ⟨q', t'⟩ h
  simpa [questionView] using h

/-- Two lists of cards with the same members, before and after they are turned into views. -/
theorem mem_map_iff_of_injective {V T : Type} {view : V → T} (hview : Function.Injective view)
    (xs ys : List V) : (∀ t, t ∈ xs.map view ↔ t ∈ ys.map view) ↔ ∀ v, v ∈ xs ↔ v ∈ ys := by
  constructor
  · intro h v
    rw [← List.mem_map_of_injective hview, h, List.mem_map_of_injective hview]
  · intro h t
    simp only [List.mem_map, h]

theorem sameCards_iff {sid : String} {es : List Wire.EventPayload} {db : Store}
    (hdb : Stored sid es db) (hhost : ∀ ev ∈ es, HostEvent ev) {snap : Snapshot}
    (hget : db.getSnapshot sid = some snap) :
    SameCards (applyAll newSessionState es) snap ↔ Unambiguous es := by
  obtain ⟨hevents, hsess⟩ := hdb.row hhost
  obtain ⟨snap', hget', -, hshows⟩ := hdb.getSnapshot hhost
  obtain rfl : snap = snap' := Option.some.inj (hget.symm.trans hget')
  have hsnap : snap = Store.snapshotOf sid ⟨replay writes blank es .status, es.length⟩ es := by
    rw [Store.getSnapshot, hsess, Option.map_some, hevents] at hget
    exact (Option.some.inj hget).symm
  have h := derived_applyAll hhost
  have hp : (∀ v, v ∈ (applyAll newSessionState es).pendingPermissions ↔
      v ∈ snap.pendingPermissions.map permissionView) ↔
        ∀ r, openPermissions r es ≠ [] →
          named r = true ∧ (openPermissions r es).head? = (openPermissions r es).getLast? := by
    rw [h.permissions, mem_map_iff_of_injective permissionView_injective, hsnap]
    simp only [mem_snapshotOf_permissions]
    exact keepFirst_agrees_iff named es
  have hq : (∀ v, v ∈ (applyAll newSessionState es).pendingQuestions ↔
      v ∈ snap.pendingQuestions.map questionView) ↔
        ∀ q, openQuestions q es ≠ [] →
          named q = true ∧ (openQuestions q es).head? = (openQuestions q es).getLast? := by
    rw [h.questions, mem_map_iff_of_injective questionView_injective, hsnap]
    simp only [mem_snapshotOf_questions]
    exact keepFirst_agrees_iff named es
  simp only [named, decide_eq_true_iff] at hp hq
  refine ⟨fun hsame => ⟨hp.mp hsame.permissions, hq.mp hsame.questions⟩, fun hun => ?_⟩
  exact ⟨h.status.trans hshows.status.symm, h.mode.trans hshows.mode.symm, hp.mpr hun.permissions,
    hq.mpr hun.questions⟩

/-- **The cards of the client and of the host are the same on unambiguous logs, and on no others.** -/
theorem same_cards {sid : String} {es : List Wire.EventPayload} {db : Store}
    (hdb : Stored sid es db) (hhost : ∀ ev ∈ es, HostEvent ev) :
    ∃ snap, db.getSnapshot sid = some snap ∧
      (SameCards (applyAll newSessionState es) snap ↔ Unambiguous es) := by
  obtain ⟨snap, hget, -⟩ := hdb.getSnapshot hhost
  exact ⟨snap, hget, sameCards_iff hdb hhost hget⟩

/-- A permission asked for and granted, then a mode. -/
theorem same_cards_log :
    ∃ db snap, Stored "session" Sample.log.events db ∧ db.getSnapshot "session" = some snap ∧
      (SameCards (applyAll newSessionState Sample.log.events) snap ↔ Unambiguous Sample.log.events) := by
  obtain ⟨db, hdb⟩ := exists_stored "session" Hub.Sample.database Sample.log
  obtain ⟨snap, hget, hiff⟩ := same_cards hdb Sample.log.bodies
  exact ⟨db, snap, hdb, hget, hiff⟩

namespace Sample

/-- The agent uses a request id twice. -/
def twice : HostLog :=
  .ofBodies [.permissionRequest ⟨"r1", "Bash", "ls"⟩, .permissionRequest ⟨"r1", "Bash", "rm -rf ."⟩]
    (by decide)

end Sample

/-- The live client shows the first request, a snapshot the second. -/
theorem twice_differs :
    ¬ ∀ sid es db snap, Stored sid es db → (∀ ev ∈ es, HostEvent ev) → db.getSnapshot sid = some snap →
      SameCards (applyAll newSessionState es) snap := by
  intro h
  obtain ⟨db, hdb⟩ := exists_stored "session" Hub.Sample.database Sample.twice
  obtain ⟨snap, hget, -⟩ := hdb.getSnapshot Sample.twice.bodies
  have hsame := h "session" _ db snap hdb Sample.twice.bodies hget
  have hun := (sameCards_iff hdb Sample.twice.bodies hget).mp hsame
  obtain ⟨-, hfirst⟩ := hun.permissions "r1" (by decide)
  exact absurd hfirst (by decide)

end Harness.Client
