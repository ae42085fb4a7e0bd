/-
# Harness.Claude.Tools — the tool calls of a transcript, and the tools a client shows for them.

The agent writes that it uses a tool in a line of its own or in blocks of an assistant message, and the
result in a line of its own or in blocks of a user message; a result belongs to the use whose id it names.
The adapter passes on neither the id nor, with a result, the name: an end of a tool has the empty name, and
user messages are not passed on at all. The client looks for the last open tool of the name it is told.

`lineTools` is what a line says about tools, a `Line` adds which use each of its results belongs to, and
`every_call_finished_iff` says for which transcripts every use is shown as a tool that is done once its
result has been read.
-/
import Harness.Claude.Adapter
import Harness.Client.Items
import Harness.Lib.Lifo

namespace Harness.Claude

open Lib Wire
open Lib.Lifo (Entry closeLast)
open Client (applyBody applyEvents finishTool received newSessionState SessionState Item JsValue)

/-! ## What a line says about tools -/

/-- The tool calls of one line, under labels `K`. -/
inductive Tools (K : Type) where
  /-- a line or blocks that use tools, with their names -/
  | uses (us : List (K × String))
  /-- a line with a result -/
  | result (k : K)
  /-- results in the blocks of a user message -/
  | nested (ks : List K)
  deriving DecidableEq

/-- The same without the labels. -/
def Tools.shape {K : Type} : Tools K → Tools Unit
  | uses us => .uses (us.map fun u => ((), u.2))
  | result _ => .result ()
  | nested ks => .nested (ks.map fun _ => ())

/-- A block that is an object of the given type. -/
def typed (type : String) : Json → Option (List (String × Json))
  | .obj b => if str (member b "type") = type then some b else none
  | _ => none

/-- The blocks of a message that are. -/
def blocks (type : String) (msg : Option Json) : List (List (String × Json)) :=
  match object msg with
  | none => []
  | some m =>
      match member m "content" with
      | some (.arr content) => content.filterMap (typed type)
      | _ => []

/-- The tool calls of a decoded line. -/
def toolsOf (raw : List (String × Json)) : Tools Unit :=
  match str (member raw "type") with
  | "tool_use" => .uses [((), str (member raw "name"))]
  | "assistant" =>
      .uses ((blocks "tool_use" (member raw "message")).map fun b => ((), str (member b "name")))
  | "tool_result" => .result ()
  | "user" => .nested ((blocks "tool_result" (member raw "message")).map fun _ => ())
  | _ => .uses []

/-- The tool calls of a line. A line that does not decode has none. -/
def lineTools (codec : Codec) (line : List UInt8) : Tools Unit :=
  match codec.unmarshal line with
  | .error _ => .uses []
  | .ok raw => toolsOf raw

/-- What the adapter tells the client of them. -/
def Tools.entry {K : Type} : Tools K → Entry K String
  | uses us => .opens us
  | result k => .closes k ""
  | nested ks => .unheard ks

/-! ## What the client shows -/

/-- The name of a tool and whether it is done. -/
def toolMark (item : Item) : Option (String × Bool) :=
  match item.body with
  | .tool name _ _ done => some (name, done)
  | _ => none

/-- The tools among the items. -/
def toolMarks (items : List Item) : List (String × Bool) := items.filterMap toolMark

/-- What an event does to them. -/
def bodyTools (ms : List (String × Bool)) : HostBody → List (String × Bool)
  | .toolCallStart b => ms ++ [(b.name, false)]
  | .toolCallEnd b => Lifo.close b.name ms
  | _ => ms

theorem toolMarks_push (items : List Item) {x : Item} (h : toolMark x = none) :
    toolMarks (items ++ [x]) = toolMarks items := Client.filterMap_push items h

theorem toolMarks_cons {item : Item} {m : String × Bool} (h : toolMark item = some m)
    (rest : List Item) : toolMarks (item :: rest) = m :: toolMarks rest := List.filterMap_cons_some h

/-- The search among the items is the search among the tools. -/
theorem toolMarks_finishTool (name : String) (output : Option String) (items : List Item) :
    (finishTool name output items).map toolMarks = closeLast name (toolMarks items) := by
  induction items with
  | nil => rfl
  | cons item rest ih =>
      rw [finishTool]
      cases h : finishTool name output rest with
      | some rest' =>
          rw [h, Option.map_some] at ih
          -- the open tool is behind this item
          rw [Option.map_some]
          cases hitem : toolMark item with
          | none =>
            rw [toolMarks, toolMarks, List.filterMap_cons_none hitem, List.filterMap_cons_none hitem]
            exact ih
          | some m => rw [toolMarks_cons hitem, toolMarks_cons hitem, closeLast, ← ih]
      | none =>
          rw [h, Option.map_none] at ih
          dsimp only
          split
          · rename_i n input out hbody
            have hopen : toolMark item = some (n, false) := by rw [toolMark, hbody]
            -- an open tool, and the last one if it has the name
            rw [toolMarks_cons hopen, closeLast, ← ih]
            by_cases hn : n = name
            · subst hn
              simp [toolMarks, toolMark]
            · simp [hn]
          · rename_i hother
            cases hitem : toolMark item with
            | none =>
                rw [toolMarks, List.filterMap_cons_none hitem]
                exact ih
            | some m =>
                obtain ⟨n, done⟩ := m
                have hdone : (n, done) ≠ (name, false) := by
                  intro heq
                  cases heq
                  unfold toolMark at hitem
                  split at hitem
                  · rename_i n input out done hbody
                    cases hitem
                    exact hother _ _ _ hbody
                  · cases hitem
                rw [toolMarks_cons hitem, closeLast, ← ih, if_neg hdone]
                rfl

theorem toolMarks_end (items : List Item) (name : String) (output : Option String) {x : Item}
    (hx : toolMark x = some (name, true)) :
    toolMarks ((finishTool name output items).getD (items ++ [x])) = Lifo.close name (toolMarks items) := by
  rw [Lifo.close, ← toolMarks_finishTool name output]
  cases finishTool name output items with
  | some items' => rfl
  | none => simp [toolMarks, hx]

theorem toolMark_resolvePermission (requestId : String) (r : Client.Resolution) (item : Item) :
    toolMark (Client.resolvePermission requestId r item) = toolMark item := by
  obtain ⟨id, seq, ts, body⟩ := item
  cases body <;> rfl

theorem toolMark_resolveQuestion (questionId : String) (r : Client.AnsweredQuestion) (item : Item) :
    toolMark (Client.resolveQuestion questionId r item) = toolMark item := by
  obtain ⟨id, seq, ts, body⟩ := item
  cases body <;> rfl

theorem toolMark_of_isNotice {item : Item} (h : item.isNotice = true) : toolMark item = none := by
  obtain ⟨id, seq, ts, body⟩ := item
  cases body with
  | notice text level => rfl
  | _ => cases h

/-- One event. -/
theorem toolMarks_applyBody (s : SessionState) (seq : ℚ) (ts : JsValue) (b : HostBody) :
    toolMarks (applyBody s seq ts b).items = bodyTools (toolMarks s.items) b := by
  have hanswer : ∀ item text done, item.body = .assistant text done → toolMark item = none :=
    fun item text done h => by rw [toolMark, h]
  have hseal : toolMarks (Client.sealOpenAssistant s.items) = toolMarks s.items :=
    Client.filterMap_sealOpenAssistant hanswer s.items
  cases b with
  | toolCallStart b => simp [applyBody, bodyTools, toolMarks, toolMark]
  | toolCallEnd b => exact toolMarks_end s.items b.name _ rfl
  | userPrompt b => exact (toolMarks_push _ rfl).trans hseal
  | textDelta b =>
      rw [applyBody]
      split
      · rfl
      · exact Client.filterMap_appendAssistant hanswer _ _ _ _
  | permissionRequest b =>
      rw [applyBody]
      split
      · rfl
      · exact Client.filterMap_addUnless _ _ rfl
  | question b =>
      rw [applyBody]
      split
      · rfl
      · exact Client.filterMap_addUnless _ _ rfl
  | permissionResolved b => exact Client.filterMap_map_of_eq _ (toolMark_resolvePermission _ _)
  | questionResolved b => exact Client.filterMap_map_of_eq _ (toolMark_resolveQuestion _ _)
  | turnComplete => exact hseal
  | error message =>
      rw [applyBody, Client.pushNotice_eq]
      refine (toolMarks_push _ rfl).trans ?_
      exact Client.filterMap_dropNotices (fun _ => toolMark_of_isNotice) _ _
  | modeChanged b hmode => rfl
  | statusChange b => rfl
  | usageUpdate b => rfl

/-! ## Lines -/

theorem foldl_textDelta (ms : List (String × Bool)) (content : String) :
    (textDelta content).foldl bodyTools ms = ms := by
  unfold textDelta
  split <;> rfl

theorem foldl_contentBlock (codec : Codec) (ms : List (String × Bool)) (block : Json) :
    (contentBlock codec block).foldl bodyTools ms =
      ms ++ (typed "tool_use" block).toList.map fun b => (str (member b "name"), false) := by
  cases block with
  | obj b =>
      rw [contentBlock, typed]
      split
      · rename_i htype
        rw [foldl_textDelta, htype, if_neg (by decide)]
        simp
      · rename_i htype
        rw [htype, if_pos rfl]
        rfl
      · rename_i hother
        rw [if_neg hother]
        simp
  | _ => simp [contentBlock, typed]

theorem foldl_content (codec : Codec) (ms : List (String × Bool)) (content : List Json) :
    (content.flatMap (contentBlock codec)).foldl bodyTools ms =
      ms ++ (content.filterMap (typed "tool_use")).map fun b => (str (member b "name"), false) := by
  induction content generalizing ms with
  | nil => simp
  | cons block content ih =>
      rw [List.flatMap_cons, List.foldl_append, ih, foldl_contentBlock, List.append_assoc]
      cases h : typed "tool_use" block with
      | none => simp [h]
      | some b => simp [h]

theorem foldl_emitTextFromMessage (codec : Codec) (ms : List (String × Bool)) (msg : Option Json) :
    (emitTextFromMessage codec msg).foldl bodyTools ms =
      ms ++ (blocks "tool_use" msg).map fun b => (str (member b "name"), false) := by
  rw [emitTextFromMessage, blocks]
  cases object msg with
  | none => simp
  | some m =>
      dsimp only
      cases member m "content" with
      | none => simp [foldl_textDelta]
      | some content =>
          cases content with
          | arr content => exact foldl_content codec ms content
          | _ => simp [foldl_textDelta]

/-- A line of another type does nothing to the tools. -/
theorem foldl_other (codec : Codec) {raw : List (String × Json)} (huse : str (member raw "type") ≠ "tool_use")
    (hresult : str (member raw "type") ≠ "tool_result") (hassistant : str (member raw "type") ≠ "assistant")
    (ms : List (String × Bool)) : (handleMessage codec raw).foldl bodyTools ms = ms := by
  unfold handleMessage
  split
  · split <;> rfl
  · contradiction
  · unfold handlePartialEvent
    split
    · rfl
    · split
      · exact foldl_textDelta _ _
      · rfl
  · cases object (member raw "usage") <;> rfl
  · unfold handleControlRequest
    split
    · rfl
    · split <;> rfl
  any_goals exact foldl_textDelta _ _
  any_goals contradiction
  all_goals rfl

/-- Tools that are used are shown, open; -/
theorem run_of_uses {K : Type} {t : Tools K} {xs : List (Unit × String)} (h : .uses xs = t.shape)
    (ms : List (String × Bool)) : t.entry.run ms = ms ++ xs.map fun u => (u.2, false) := by
  cases t with
  | uses us =>
      rw [Tools.uses.inj h, List.map_map]
      rfl
  | result k => cases h
  | nested ks => cases h

/-- a result in a line of its own closes the last one that has no name; -/
theorem run_of_result {K : Type} {t : Tools K} (h : .result () = t.shape) (ms : List (String × Bool)) :
    t.entry.run ms = Lifo.close "" ms := by
  cases t with
  | uses us => cases h
  | result k => rfl
  | nested ks => cases h

/-- and results in a message do nothing. -/
theorem run_of_nested {K : Type} {t : Tools K} {ks : List Unit} (h : .nested ks = t.shape)
    (ms : List (String × Bool)) : t.entry.run ms = ms := by
  cases t with
  | uses us => cases h
  | result k => cases h
  | nested ks' => rfl

/-- **What the client shows after a line.** -/
theorem foldl_handleStreamJSON (codec : Codec) {K : Type} {line : List UInt8} {t : Tools K}
    (ht : lineTools codec line = t.shape) (ms : List (String × Bool)) :
    (handleStreamJSON codec line).foldl bodyTools ms = t.entry.run ms := by
  rw [lineTools] at ht
  rw [handleStreamJSON]
  cases hline : codec.unmarshal line with
  | error err =>
      rw [hline] at ht
      rw [run_of_uses ht]
      exact (List.append_nil ms).symm
  | ok raw =>
      rw [hline] at ht
      dsimp only at ht ⊢
      unfold toolsOf at ht
      split at ht
      · rename_i htype
        rw [run_of_uses ht, handleMessage, htype]
        rfl
      · rename_i htype
        rw [run_of_uses ht, handleMessage, htype, List.map_map]
        exact foldl_emitTextFromMessage codec ms _
      · rename_i htype
        rw [run_of_result ht, handleMessage, htype]
        rfl
      · rename_i htype
        rw [run_of_nested ht, handleMessage, htype]
        rfl
      · -- a line of another type
        rename_i huse hassistant hresult huser
        rw [run_of_uses ht, foldl_other codec huse hresult hassistant]
        exact (List.append_nil ms).symm

/-! ## Transcripts -/

/-- A line of a transcript, with the uses its results belong to. -/
structure Line (codec : Codec) (K : Type) where
  text : List UInt8
  tools : Tools K
  reads : lineTools codec text = tools.shape

section Transcript

variable {codec : Codec} {K : Type}

/-- The history of tool calls. -/
def calls (p : List (Line codec K)) : List (Entry K String) := p.map fun l => l.tools.entry

theorem calls_concat (p : List (Line codec K)) (l : Line codec K) :
    calls (p ++ [l]) = calls p ++ [l.tools.entry] := List.map_append

/-- The adapter's events of the lines, numbered and dated in any way. -/
def stamped (stamp : Nat → Nat × Int) (bs : List HostBody) : List Wire.EventPayload :=
  bs.mapIdx fun i b => ⟨(stamp i).1, (stamp i).2, (event b).1, (event b).2⟩

/-- What a new client shows that is given them. -/
def shown (stamp : Nat → Nat × Int) (p : List (Line codec K)) : SessionState :=
  applyEvents newSessionState
    ((stamped stamp (p.flatMap fun l => handleStreamJSON codec l.text)).map received)

theorem toolMarks_applyEvents (stamp : Nat → Nat × Int) (s : SessionState) (bs : List HostBody) :
    toolMarks (applyEvents s ((stamped stamp bs).map received)).items =
      bs.foldl bodyTools (toolMarks s.items) := by
  induction bs using List.reverseRecOn with
  | nil => rfl
  | append_singleton bs b ih =>
      rw [stamped, List.mapIdx_concat, List.map_append, List.map_singleton, Client.applyEvents_concat,
        Client.applyEvent_received (b := b) _ rfl rfl, toolMarks_applyBody, List.foldl_concat, ← ih,
        stamped]

/-- The tools a client shows are those of a reader of the calls. -/
theorem toolMarks_shown (stamp : Nat → Nat × Int) (p : List (Line codec K)) :
    toolMarks (shown stamp p).items = Lifo.reading (calls p) := by
  rw [shown, toolMarks_applyEvents]
  induction p using List.reverseRecOn with
  | nil => rfl
  | append_singleton p l ih =>
      rw [calls_concat, Lifo.reading_concat, ← ih, ← foldl_handleStreamJSON codec l.reads,
        List.flatMap_append, List.foldl_append, List.flatMap_singleton]

/-- **`Finished p s`** — the client shows one tool for each use of a tool in the lines, in their order and
under its name, and it is done if its result is in the lines. -/
def Finished (p : List (Line codec K)) (s : SessionState) : Prop :=
  List.Forall₂ (fun u m => m.1 = u.2 ∧ (u.1 ∈ Lifo.closed (calls p) → m.2 = true))
    (Lifo.opened (calls p)) (toolMarks s.items)

/-- **`Told p l`** — a result in the line is a line of its own, and belongs to the last use without a name
that has no result yet. -/
def Told (p : List (Line codec K)) (l : Line codec K) : Prop :=
  ∀ k ∈ l.tools.entry.closed, l.tools = .result k ∧ Lifo.Latest (calls p) "" k

theorem heard_iff {p : List (Line codec K)} {l : Line codec K} :
    Lifo.Heard (calls p) l.tools.entry ↔ Told p l := by
  unfold Lifo.Heard Told
  cases l.tools with
  | uses us => simp [Tools.entry, Entry.closed]
  | result k => simp [Tools.entry, Entry.closed]
  | nested ks => simp [Tools.entry, Entry.closed]

/-- **When every tool call that finishes is shown as finished.** -/
theorem every_call_finished_iff [DecidableEq K] (stamp : Nat → Nat × Int) (script : List (Line codec K))
    (h : Lifo.Paired (calls script)) :
    (∀ p, p <+: script → Finished p (shown stamp p)) ↔ Lts.Preceded Told script := by
  have htold : Lts.Preceded Lifo.Heard (calls script) ↔ Lts.Preceded Told script := by
    rw [calls, Lts.preceded_map_iff]
    exact forall₄_congr fun p l q _ => heard_iff
  rw [← htold, ← Lifo.shows_all_iff h]
  constructor
  · intro hfinished es hes
    obtain ⟨p, hp, rfl⟩ := List.prefix_map_iff.mp hes
    have hshows := hfinished p hp
    rw [Finished, toolMarks_shown] at hshows
    exact hshows
  · intro hshows p hp
    rw [Finished, toolMarks_shown]
    exact hshows (calls p) (hp.map _)

end Transcript

namespace Sample

/-- A use of a tool in a line of its own, without a name, -/
def toolUse : List UInt8 := "\x7b\"type\":\"tool_use\"\x7d".toUTF8.data.toList

/-- with one, -/
def readUse : List UInt8 := "\x7b\"type\":\"tool_use\",\"name\":\"Read\"\x7d".toUTF8.data.toList

/-- and a result. -/
def useResult : List UInt8 := "\x7b\"type\":\"tool_result\"\x7d".toUTF8.data.toList

/-- What `encoding/json` makes of the three lines. -/
def reader : Codec where
  unmarshal line :=
    if line = toolUse then .ok [("type", .str "tool_use")]
    else if line = readUse then .ok [("type", .str "tool_use"), ("name", .str "Read")]
    else if line = useResult then .ok [("type", .str "tool_result")]
    else .error "invalid character"
  marshal _ := "null"
  int n := n.mantissa

/-- A tool without a name is used and finishes. -/
def namelessCall : List (Line reader Nat) :=
  [⟨toolUse, .uses [(0, "")], rfl⟩, ⟨useResult, .result 0, rfl⟩]

/-- `Read` is used and finishes. -/
def readCall : List (Line reader Nat) :=
  [⟨readUse, .uses [(0, "Read")], rfl⟩, ⟨useResult, .result 0, rfl⟩]

end Sample

theorem paired_oneCall (name told : String) :
    Lifo.Paired [Entry.opens [(0, name)], Entry.closes 0 told] := by
  have hopen : Lifo.Fits [] (Entry.opens [(0, name)]) :=
    ⟨List.nodup_singleton _, fun _ _ => List.not_mem_nil, List.nodup_nil, fun _ h => absurd h List.not_mem_nil⟩
  have hclose : Lifo.Fits ([] ++ [Entry.opens [(0, name)]]) (Entry.closes 0 told) := by
    refine ⟨List.nodup_nil, fun _ h => absurd h List.not_mem_nil, List.nodup_singleton _, fun k hk => ?_⟩
    obtain rfl := List.mem_singleton.mp hk
    exact ⟨List.mem_cons_self, List.not_mem_nil⟩
  exact Lts.preceded_snoc (Lts.preceded_snoc (Lts.preceded_nil _) hopen) hclose

/-- `Read` finishes, and is still shown as running, beside a second tool that is done. -/
theorem readCall_unfinished :
    Lifo.Paired (calls Sample.readCall) ∧
      (∀ u ∈ Lifo.opened (calls Sample.readCall), u.1 ∈ Lifo.closed (calls Sample.readCall)) ∧
      toolMarks (shown (fun i => (i + 1, 0)) Sample.readCall).items = [("Read", false), ("", true)] ∧
      ¬ Finished Sample.readCall (shown (fun i => (i + 1, 0)) Sample.readCall) := by
  have hmarks : toolMarks (shown (fun i => (i + 1, 0)) Sample.readCall).items =
      [("Read", false), ("", true)] := by decide +kernel
  refine ⟨paired_oneCall _ _, by decide, hmarks, fun h => ?_⟩
  rw [Finished, hmarks] at h
  have hlength := h.length_eq
  revert hlength
  decide

/-- Without a name the tool is found. -/
theorem every_call_finished_nameless :
    Finished Sample.namelessCall (shown (fun i => (i + 1, 0)) Sample.namelessCall) := by
  have huse : Told [] (⟨Sample.toolUse, .uses [(0, "")], rfl⟩ : Line Sample.reader Nat) :=
    fun _ hk => absurd hk List.not_mem_nil
  have hresult : Told ([] ++ [⟨Sample.toolUse, .uses [(0, "")], rfl⟩])
      (⟨Sample.useResult, .result 0, rfl⟩ : Line Sample.reader Nat) := by
    intro k hk
    obtain rfl := List.mem_singleton.mp hk
    exact ⟨rfl, [], [], rfl, fun _ h => absurd h List.not_mem_nil⟩
  have htold : Lts.Preceded Told Sample.namelessCall :=
    Lts.preceded_snoc (Lts.preceded_snoc (Lts.preceded_nil _) huse) hresult
  exact (every_call_finished_iff (fun i => (i + 1, 0)) Sample.namelessCall (paired_oneCall _ _)).mpr htold
    Sample.namelessCall (List.prefix_refl _)

end Harness.Claude
