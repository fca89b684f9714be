import Finguard.Lib.Dict
import Finguard.Lib.Scan
import Finguard.PythonValues
import Finguard.Supervisor

/-! The hub writer's compaction of a session's messages. -/

namespace Finguard
open Text

/-- A text, or parts of which only the text that `str` makes is looked at. -/
inductive MessageContent where
  | text (s : String)
  | parts (shown : String)
deriving DecidableEq

def MessageContent.str : MessageContent → String
  | text s => s
  | parts shown => shown

structure HistoryMessage where
  id : String
  kind : MessageKind
  name : Option String
  content : MessageContent
deriving DecidableEq

/-- What the supervisor looks at. -/
def HistoryMessage.chat (m : HistoryMessage) : ChatMessage where
  kind := m.kind
  content := m.content.str
  name := m.name

namespace Compaction

def compactThreshold : ℕ := 12

def compactContentChars : ℕ := 2000

def marker : String := "…[compacted]"

/-- The agent of a message that compaction looks at. -/
def agentOf (m : HistoryMessage) : Option String :=
  if m.kind = .human then none
  else m.name.filter fun name => name ≠ "" ∧ name ≠ "supervisor"

/-- An update of the messages: one is removed, or put in the place of the one with its id. -/
inductive MessageUpdate where
  | remove (id : String)
  | put (m : HistoryMessage)
deriving DecidableEq

/-- Each agent's latest message. -/
def latestByName (messages : List HistoryMessage) : List (String × HistoryMessage) :=
  messages.foldl (fun latest m =>
    match agentOf m with
    | none => latest
    | some name => Dict.set latest name m) []

def isLong : MessageContent → Bool
  | .text s => compactContentChars < s.length
  | .parts _ => false

def cutOff (s : String) : String := String.ofList (s.toList.take compactContentChars) ++ marker

def truncated (m : HistoryMessage) : HistoryMessage :=
  { m with content := .text (cutOff m.content.str) }

/-- Messages are told apart by their ids. -/
def compactMessages (messages : List HistoryMessage) : List MessageUpdate :=
  let latest := latestByName messages
  messages.filterMap fun m =>
    match agentOf m with
    | none => none
    | some name =>
      if (latest.lookup name).map (·.id) ≠ some m.id then some (.remove m.id)
      else if isLong m.content then some (.put (truncated m))
      else none

/-- One update of `add_messages`. -/
def applyUpdate (messages : List HistoryMessage) :
    MessageUpdate → Except PyException (List HistoryMessage)
  | .remove id =>
    if id ∈ messages.map (·.id) then .ok (messages.filter (·.id ≠ id)) else .error .valueError
  | .put m =>
    if m.id ∈ messages.map (·.id) then .ok (messages.map fun old => if old.id = m.id then m else old)
    else .ok (messages ++ [m])

def addMessages (messages : List HistoryMessage) (updates : List MessageUpdate) :
    Except PyException (List HistoryMessage) :=
  updates.foldlM applyUpdate messages

def compactionStep (messages : List HistoryMessage) : List MessageUpdate :=
  if compactThreshold < messages.length then compactMessages messages else []

/-- What compaction makes of a message of the history. -/
def outcome (h : List HistoryMessage) (m : HistoryMessage) : Option HistoryMessage :=
  match agentOf m with
  | none => some m
  | some name =>
    if ((latestByName h).lookup name).map (·.id) ≠ some m.id then none
    else if isLong m.content then some (truncated m) else some m

def compacted (h : List HistoryMessage) : List HistoryMessage := h.filterMap (outcome h)

variable {h before todo : List HistoryMessage} {m m' : HistoryMessage} {name : String}

theorem outcome_cases (hm : outcome h m = some m') :
    m' = m ∨ (agentOf m).isSome ∧ isLong m.content ∧ m' = truncated m := by
  unfold outcome at hm
  split at hm
  · exact .inl (Option.some.inj hm).symm
  · rename_i name hname
    split at hm
    · cases hm
    · split at hm
      · rename_i hlong
        exact .inr ⟨by rw [hname]; rfl, hlong, (Option.some.inj hm).symm⟩
      · exact .inl (Option.some.inj hm).symm

theorem outcome_of_agent (hname : agentOf m = some name) (hm : outcome h m = some m') :
    m' = if isLong m.content then truncated m else m := by
  rw [outcome, hname] at hm
  dsimp only at hm
  split at hm
  · cases hm
  · split at hm
    · rename_i hlong
      rw [if_pos hlong, Option.some.inj hm]
    · rename_i hlong
      rw [if_neg hlong, Option.some.inj hm]

theorem id_of_outcome (hm : outcome h m = some m') : m'.id = m.id := by
  rcases outcome_cases hm with rfl | ⟨-, -, rfl⟩ <;> rfl

theorem agentOf_of_outcome (hm : outcome h m = some m') : agentOf m' = agentOf m := by
  rcases outcome_cases hm with rfl | ⟨-, -, rfl⟩ <;> rfl

/-- An update that makes of a message what `result` says. -/
inductive Makes (m : HistoryMessage) : Option MessageUpdate → Option HistoryMessage → Prop where
  | keep : Makes m none (some m)
  | remove : Makes m (some (.remove m.id)) none
  | put {m' : HistoryMessage} (hid : m'.id = m.id) : Makes m (some (.put m')) (some m')

theorem Makes.id_eq {update : Option MessageUpdate} {result : Option HistoryMessage}
    (h : Makes m update result) (hm : result = some m') : m'.id = m.id := by
  cases h with
  | keep => rw [Option.some.inj hm]
  | remove => cases hm
  | put hid => rw [← Option.some.inj hm, hid]

theorem Makes.apply {u : MessageUpdate} {result : Option HistoryMessage}
    (h : Makes m (some u) result) (hbefore : ∀ x ∈ before, x.id ≠ m.id)
    (htodo : ∀ x ∈ todo, x.id ≠ m.id) :
    applyUpdate (before ++ m :: todo) u = .ok (before ++ (result.toList ++ todo)) := by
  have hmem : m.id ∈ (before ++ m :: todo).map (·.id) := List.mem_map_of_mem (by simp)
  cases h with
  | remove =>
    have hfirst : before.filter (fun x => decide (x.id ≠ m.id)) = before :=
      List.filter_eq_self.mpr fun x hx => decide_eq_true (hbefore x hx)
    have hlast : todo.filter (fun x => decide (x.id ≠ m.id)) = todo :=
      List.filter_eq_self.mpr fun x hx => decide_eq_true (htodo x hx)
    rw [applyUpdate, if_pos hmem, List.filter_append, List.filter_cons_of_neg (by simp), hfirst,
      hlast]
    rfl
  | put hid =>
    rename_i m'
    have hsame : ∀ {l : List HistoryMessage}, (∀ x ∈ l, x.id ≠ m.id) →
        l.map (fun old => if old.id = m'.id then m' else old) = l := by
      intro l hl
      have hid' : ∀ x ∈ l, (if x.id = m'.id then m' else x) = id x := by
        intro x hx
        rw [hid, if_neg (hl x hx)]
        rfl
      rw [List.map_congr_left hid', List.map_id]
    rw [applyUpdate, if_pos (hid ▸ hmem), List.map_append, List.map_cons, hsame hbefore,
      hsame htodo, if_pos hid.symm]
    rfl

theorem addMessages_eq {update : HistoryMessage → Option MessageUpdate}
    {result : HistoryMessage → Option HistoryMessage} (h : ∀ m, Makes m (update m) (result m))
    (hids : ((before ++ todo).map (·.id)).Nodup) :
    addMessages (before ++ todo) (todo.filterMap update) =
      .ok (before ++ todo.filterMap result) := by
  induction todo generalizing before with
  | nil => rfl
  | cons m todo ih =>
    have hapart : (before.map (·.id)).Nodup ∧ m.id ∉ todo.map (·.id) ∧
        m.id ∉ before.map (·.id) := by
      rw [List.map_append, List.map_cons, List.nodup_append] at hids
      obtain ⟨hbefore, hrest, hdisjoint⟩ := hids
      refine ⟨hbefore, (List.nodup_cons.mp hrest).1, fun hmem => ?_⟩
      exact hdisjoint m.id hmem m.id List.mem_cons_self rfl
    obtain ⟨-, htodo, hbefore⟩ := hapart
    have hbefore' : ∀ x ∈ before, x.id ≠ m.id := fun x hx heq =>
      hbefore (heq ▸ List.mem_map_of_mem (f := (·.id)) hx)
    have htodo' : ∀ x ∈ todo, x.id ≠ m.id := fun x hx heq =>
      htodo (heq ▸ List.mem_map_of_mem (f := (·.id)) hx)
    have hsub : ((result m).toList.map (·.id)).Sublist [m.id] := by
      cases hresult : result m with
      | none => exact List.nil_sublist _
      | some m' => simp [(h m).id_eq hresult]
    have hnext : ((before ++ (result m).toList ++ todo).map (·.id)).Nodup := by
      refine hids.sublist ?_
      rw [List.map_append, List.map_append, List.map_append, List.map_cons, List.append_assoc]
      exact (hsub.append_right _).append_left _
    have hrest := ih hnext
    have hdone : before ++ (m :: todo).filterMap result =
        before ++ (result m).toList ++ todo.filterMap result := by
      cases hresult : result m <;> simp [hresult]
    rw [hdone, ← hrest]
    cases hupdate : update m with
    | none =>
      have hkeep := h m
      rw [hupdate] at hkeep
      have hresult : result m = some m := by
        generalize result m = r at hkeep ⊢
        cases hkeep
        rfl
      rw [List.filterMap_cons_none hupdate, hresult]
      simp
    | some u =>
      have hmakes := h m
      rw [hupdate] at hmakes
      have hstep : addMessages (before ++ m :: todo) (u :: todo.filterMap update) =
          addMessages (before ++ (result m).toList ++ todo) (todo.filterMap update) := by
        rw [addMessages, List.foldlM_cons, hmakes.apply hbefore' htodo', List.append_assoc]
        rfl
      rw [List.filterMap_cons_some hupdate, hstep]

theorem addMessages_compactMessages (hids : (h.map (·.id)).Nodup) :
    addMessages h (compactMessages h) = .ok (compacted h) := by
  have hmakes : ∀ m, Makes m
      (match agentOf m with
        | none => none
        | some name =>
          if ((latestByName h).lookup name).map (·.id) ≠ some m.id then some (.remove m.id)
          else if isLong m.content then some (.put (truncated m))
          else none) (outcome h m) := by
    intro m
    unfold outcome
    cases agentOf m with
    | none => exact .keep
    | some name =>
      dsimp only
      split
      · exact .remove
      · split
        · exact .put rfl
        · exact .keep
  exact @addMessages_eq [] h _ _ hmakes hids

/-! What is left. -/

theorem lookup_latestByName (h : List HistoryMessage) (name : String) :
    (latestByName h).lookup name = (h.filter fun m => agentOf m = some name).getLast? := by
  induction h using List.reverseRecOn with
  | nil => rfl
  | append_singleton h m ih =>
    rw [latestByName, List.foldl_append, List.filter_append]
    have hlast : h.foldl (fun latest m =>
        match agentOf m with
        | none => latest
        | some name => Dict.set latest name m) [] = latestByName h := rfl
    rw [hlast, List.foldl_cons, List.foldl_nil]
    cases hname : agentOf m with
    | none => simp [hname, ih]
    | some other =>
      by_cases hother : other = name
      · simp [hname, hother, Dict.lookup_set_self]
      · have hne : name ≠ other := Ne.symm hother
        simp [hname, hother, Dict.lookup_set_of_ne hne, ih]

theorem outcome_of_other (hm : agentOf m = none) : outcome h m = some m := by
  rw [outcome, hm]

theorem outcome_eq_some_iff (hm : agentOf m = some name) : (∃ m', outcome h m = some m') ↔
    ((h.filter fun x => agentOf x = some name).getLast?).map (·.id) = some m.id := by
  rw [← lookup_latestByName]
  constructor
  · rintro ⟨m', hm'⟩
    by_contra hne
    simp [outcome, hm, hne] at hm'
  · intro heq
    by_cases hlong : isLong m.content
    · exact ⟨truncated m, by simp [outcome, hm, heq, hlong]⟩
    · exact ⟨m, by simp [outcome, hm, heq, hlong]⟩

theorem exists_outcome (hm : m ∈ h) (hname : agentOf m = some name) :
    ∃ x ∈ h, agentOf x = some name ∧ ∃ x', outcome h x = some x' := by
  have hmem : m ∈ h.filter fun x => agentOf x = some name :=
    List.mem_filter.mpr ⟨hm, decide_eq_true hname⟩
  have hne := List.ne_nil_of_mem hmem
  obtain ⟨hlast, hagent⟩ := List.mem_filter.mp (List.getLast_mem hne)
  have hagent' := of_decide_eq_true hagent
  refine ⟨_, hlast, hagent', (outcome_eq_some_iff hagent').mpr ?_⟩
  rw [List.getLast?_eq_some_getLast hne]
  rfl

theorem name_of_agentOf (hm : agentOf m = some name) : m.name = some name := by
  unfold agentOf at hm
  split at hm
  · cases hm
  · exact (Option.filter_eq_some_iff.mp hm).1

theorem mem_compacted : m' ∈ compacted h ↔ ∃ m ∈ h, outcome h m = some m' := List.mem_filterMap

theorem name_of_outcome (hm : outcome h m = some m') : m'.name = m.name := by
  rcases outcome_cases hm with rfl | ⟨-, -, rfl⟩ <;> rfl

theorem kind_of_outcome (hm : outcome h m = some m') : m'.kind = m.kind := by
  rcases outcome_cases hm with rfl | ⟨-, -, rfl⟩ <;> rfl

theorem mem_names_iff {name : Option String} :
    name ∈ (compacted h).map (·.name) ↔ name ∈ h.map (·.name) := by
  simp only [List.mem_map, mem_compacted]
  constructor
  · rintro ⟨m', ⟨m, hm, hout⟩, rfl⟩
    exact ⟨m, hm, (name_of_outcome hout).symm⟩
  · rintro ⟨m, hm, rfl⟩
    cases hagent : agentOf m with
    | none => exact ⟨m, ⟨m, hm, outcome_of_other hagent⟩, rfl⟩
    | some name =>
      obtain ⟨x, hx, hxagent, x', hout⟩ := exists_outcome hm hagent
      refine ⟨x', ⟨x, hx, hout⟩, ?_⟩
      rw [name_of_outcome hout, name_of_agentOf hxagent, name_of_agentOf hagent]

/-! The observers. -/

theorem sorted_eq_of_perm {names names' : List String} (h : names.Perm names') :
    sorted names = sorted names' := by
  have hperm : (sorted names).Perm (sorted names') :=
    (List.perm_insertionSort _ names).trans (h.trans (List.perm_insertionSort _ names').symm)
  exact hperm.eq_of_pairwise (fun _ _ _ _ => le_antisymm) (List.pairwise_insertionSort _ _)
    (List.pairwise_insertionSort _ _)

theorem mem_agentNames {messages : List ChatMessage} {s : String} :
    s ∈ agentNames messages ↔ some s ∈ messages.map (·.name) ∧ s ≠ "supervisor" := by
  simp [agentNames]

theorem mem_agentNames_compacted {s : String} :
    s ∈ agentNames ((compacted h).map HistoryMessage.chat) ↔
      s ∈ agentNames (h.map HistoryMessage.chat) := by
  have hnames : ∀ l : List HistoryMessage,
      (l.map HistoryMessage.chat).map (·.name) = l.map (·.name) := by
    intro l
    rw [List.map_map]
    rfl
  rw [mem_agentNames, mem_agentNames, hnames, hnames, mem_names_iff]

theorem progressSignature_compacted (h : List HistoryMessage) (context : Json.Fields) :
    progressSignature ((compacted h).map HistoryMessage.chat) context =
      progressSignature (h.map HistoryMessage.chat) context := by
  have hperm : (agentNames ((compacted h).map HistoryMessage.chat)).dedup.Perm
      (agentNames (h.map HistoryMessage.chat)).dedup := by
    refine (List.perm_ext_iff_of_nodup (List.nodup_dedup _) (List.nodup_dedup _)).mpr fun s => ?_
    rw [List.mem_dedup, List.mem_dedup, mem_agentNames_compacted]
  rw [progressSignature, progressSignature, sorted_eq_of_perm hperm]

theorem agentHasRun_compacted (h : List HistoryMessage) (node : String) :
    agentHasRun ((compacted h).map HistoryMessage.chat) node =
      agentHasRun (h.map HistoryMessage.chat) node := by
  have hiff : ∀ l : List HistoryMessage,
      agentHasRun (l.map HistoryMessage.chat) node = true ↔ some node ∈ l.map (·.name) := by
    intro l
    rw [agentHasRun, List.any_map, List.any_eq_true, List.mem_map]
    exact exists_congr fun x => and_congr_right fun _ => decide_eq_true_iff
  exact Bool.eq_iff_iff.mpr (by rw [hiff, hiff, mem_names_iff])

theorem isInitialCall_compacted (h : List HistoryMessage) :
    isInitialCall ((compacted h).map HistoryMessage.chat) =
      isInitialCall (h.map HistoryMessage.chat) := by
  refine Bool.eq_iff_iff.mpr ?_
  rw [isInitialCall, isInitialCall, List.isEmpty_iff, List.isEmpty_iff,
    List.eq_nil_iff_forall_not_mem, List.eq_nil_iff_forall_not_mem]
  exact forall_congr' fun s => not_congr mem_agentNames_compacted

theorem agentOf_human (hm : m.kind = .human) : agentOf m = none := if_pos hm

theorem find_human_filterMap (h l : List HistoryMessage) :
    ((l.filterMap (outcome h)).map HistoryMessage.chat).find? (·.kind = .human) =
      (l.map HistoryMessage.chat).find? (·.kind = .human) := by
  induction l with
  | nil => rfl
  | cons m l ih =>
    by_cases hhuman : m.kind = .human
    · rw [List.filterMap_cons_some (outcome_of_other (agentOf_human hhuman))]
      simp [HistoryMessage.chat, hhuman]
    · have hskip : ∀ {x : HistoryMessage}, x.kind = m.kind →
          decide (x.chat.kind = .human) = false := fun hx => by
        simp [HistoryMessage.chat, hx, hhuman]
      rw [List.map_cons, List.find?_cons_of_neg (by simp [hskip rfl]), ← ih]
      cases hout : outcome h m with
      | none => rw [List.filterMap_cons_none hout]
      | some m' =>
        rw [List.filterMap_cons_some hout, List.map_cons,
          List.find?_cons_of_neg (by simp [hskip (kind_of_outcome hout)])]

theorem firstIntentText_compacted [Unicode] (h : List HistoryMessage) :
    firstIntentText ((compacted h).map HistoryMessage.chat) =
      firstIntentText (h.map HistoryMessage.chat) := by
  rw [firstIntentText, firstIntentText, compacted, find_human_filterMap]

/-! Survivors. -/

/-- The message, or its beginning with a mark that the rest was cut off. -/
def Shortens (m m' : HistoryMessage) : Prop :=
  m' = m ∨ ∃ s, m.content = .text s ∧ compactContentChars < s.length ∧
    m' = { m with content := .text (cutOff s) }

theorem shortens_of_outcome (hm : outcome h m = some m') : Shortens m m' := by
  rcases outcome_cases hm with rfl | ⟨-, hlong, rfl⟩
  · exact .inl rfl
  · cases hcontent : m.content with
    | parts shown => simp [isLong, hcontent] at hlong
    | text s =>
      have hlength : compactContentChars < s.length := by simpa [isLong, hcontent] using hlong
      refine .inr ⟨s, hcontent, hlength, ?_⟩
      simp [truncated, hcontent, MessageContent.str]

theorem truncated_truncated (hlong : isLong m.content) : truncated (truncated m) = truncated m := by
  cases hcontent : m.content with
  | parts shown => simp [isLong, hcontent] at hlong
  | text s =>
    have hlength : compactContentChars < s.length := by simpa [isLong, hcontent] using hlong
    rw [← String.length_toList] at hlength
    have htake : (s.toList.take compactContentChars ++ marker.toList).take compactContentChars =
        s.toList.take compactContentChars := by
      refine List.take_left' ?_
      rw [List.length_take, min_eq_left hlength.le]
    simp [truncated, cutOff, hcontent, MessageContent.str, htake]

theorem ids_compacted (h : List HistoryMessage) :
    ((compacted h).map (·.id)).Sublist (h.map (·.id)) := by
  have hsub : ∀ l : List HistoryMessage,
      ((l.filterMap (outcome h)).map (·.id)).Sublist (l.map (·.id)) := by
    intro l
    induction l with
    | nil => exact .slnil
    | cons m l ih =>
      cases hout : outcome h m with
      | none =>
        rw [List.filterMap_cons_none hout]
        exact ih.cons _
      | some m' =>
        rw [List.filterMap_cons_some hout, List.map_cons, id_of_outcome hout]
        exact ih.cons_cons _
  exact hsub h

theorem outcome_of_latest {after : List HistoryMessage} (hm : agentOf m = some name)
    (hafter : ∀ x ∈ after, agentOf x ≠ some name) :
    ∃ m', outcome (before ++ m :: after) m = some m' := by
  have hlast : (before ++ m :: after).filter (fun x => decide (agentOf x = some name)) =
      before.filter (fun x => decide (agentOf x = some name)) ++ [m] := by
    have hnone : after.filter (fun x => decide (agentOf x = some name)) = [] :=
      List.filter_eq_nil_iff.mpr fun x hx => by simpa using hafter x hx
    have hself : decide (agentOf m = some name) = true := decide_eq_true hm
    simp only [List.filter_append, List.filter_cons, hself, hnone, if_true]
  rw [outcome_eq_some_iff hm, hlast, List.getLast?_concat]
  rfl

theorem outcome_compacted (hm : m' ∈ compacted h) : outcome (compacted h) m' = some m' := by
  obtain ⟨m, hmem, hout⟩ := mem_compacted.mp hm
  cases hagent : agentOf m' with
  | none => exact outcome_of_other hagent
  | some name =>
    have hagent_m : agentOf m = some name := (agentOf_of_outcome hout).symm.trans hagent
    -- every message of the agent that is left has the id of its latest message
    have hid : ∀ x ∈ compacted h, agentOf x = some name → x.id = m'.id := by
      intro x' hx' hxagent
      obtain ⟨x, hx, hxout⟩ := mem_compacted.mp hx'
      have hxagent' : agentOf x = some name := (agentOf_of_outcome hxout).symm.trans hxagent
      have hlatest := (outcome_eq_some_iff hagent_m).mp ⟨m', hout⟩
      have hlatest' := (outcome_eq_some_iff hxagent').mp ⟨x', hxout⟩
      rw [id_of_outcome hout, id_of_outcome hxout]
      exact Option.some.inj (hlatest'.symm.trans hlatest)
    obtain ⟨m'', hkept⟩ : ∃ m'', outcome (compacted h) m' = some m'' := by
      refine (outcome_eq_some_iff hagent).mpr ?_
      obtain ⟨x, hx, hxagent, x', hxout⟩ := exists_outcome hm hagent
      rw [(outcome_eq_some_iff hxagent).mp ⟨x', hxout⟩, hid x hx hxagent]
    have hsame : m'' = m' := by
      rw [outcome_of_agent hagent hkept]
      have hm' := outcome_of_agent hagent_m hout
      by_cases hlong : isLong m.content
      · rw [if_pos hlong] at hm'
        rw [hm', truncated_truncated hlong, ite_self]
      · rw [if_neg hlong] at hm'
        rw [hm', if_neg hlong]
    rw [hkept, hsame]

theorem compacted_compacted (h : List HistoryMessage) : compacted (compacted h) = compacted h := by
  have hsame : ∀ m ∈ compacted h, outcome (compacted h) m = some m := fun m => outcome_compacted
  have hmap : ∀ l : List HistoryMessage, (∀ m ∈ l, outcome (compacted h) m = some m) →
      l.filterMap (outcome (compacted h)) = l := by
    intro l hl
    induction l with
    | nil => rfl
    | cons m l ih =>
      rw [List.filterMap_cons_some (hl m List.mem_cons_self),
        ih fun x hx => hl x (List.mem_cons_of_mem _ hx)]
  exact hmap _ hsame

/-- The supervisor reads the same from the messages before and after a compaction. -/
theorem compaction_invisible [Unicode] (hids : (h.map (·.id)).Nodup) :
    ∃ h', addMessages h (compactMessages h) = .ok h' ∧
      (∀ context, progressSignature (h'.map HistoryMessage.chat) context =
        progressSignature (h.map HistoryMessage.chat) context) ∧
      (∀ node, agentHasRun (h'.map HistoryMessage.chat) node =
        agentHasRun (h.map HistoryMessage.chat) node) ∧
      firstIntentText (h'.map HistoryMessage.chat) =
        firstIntentText (h.map HistoryMessage.chat) ∧
      isInitialCall (h'.map HistoryMessage.chat) = isInitialCall (h.map HistoryMessage.chat) ∧
      (h'.map (·.id)).Sublist (h.map (·.id)) ∧
      (∀ m ∈ h, m.kind = .human ∨ m.name = some "supervisor" → m ∈ h') ∧
      (∀ before m after name, h = before ++ m :: after → agentOf m = some name →
        (∀ x ∈ after, agentOf x ≠ some name) → ∃ m' ∈ h', Shortens m m') ∧
      addMessages h' (compactMessages h') = .ok h' := by
  refine ⟨compacted h, addMessages_compactMessages hids, progressSignature_compacted h,
    agentHasRun_compacted h, firstIntentText_compacted h, isInitialCall_compacted h,
    ids_compacted h, ?_, ?_, ?_⟩
  · intro m hm hother
    have hagent : agentOf m = none := by
      rcases hother with hhuman | hname
      · exact agentOf_human hhuman
      · unfold agentOf
        split
        · rfl
        · simp [hname]
    exact mem_compacted.mpr ⟨m, hm, outcome_of_other hagent⟩
  · rintro before m after name rfl hname hafter
    obtain ⟨m', hout⟩ := outcome_of_latest hname hafter
    exact ⟨m', mem_compacted.mpr ⟨m, by simp, hout⟩, shortens_of_outcome hout⟩
  · have hids' := hids.sublist (ids_compacted h)
    rw [addMessages_compactMessages hids', compacted_compacted]

/-- A session in which an agent was asked twice. -/
def askedTwice : List HistoryMessage := [
  ⟨"1", .human, none, .text "Forecast the cash flow"⟩,
  ⟨"2", .ai, some "d_forecaster", .text "It falls."⟩,
  ⟨"3", .ai, some "supervisor", .text "Routing to d_forecaster"⟩,
  ⟨"4", .ai, some "d_forecaster", .text "It rises."⟩]

theorem askedTwice_compacted :
    letI := Unicode.ascii
    ∃ h', addMessages askedTwice (compactMessages askedTwice) = .ok h' ∧
      (∀ context, progressSignature (h'.map HistoryMessage.chat) context =
        progressSignature (askedTwice.map HistoryMessage.chat) context) ∧
      (∀ node, agentHasRun (h'.map HistoryMessage.chat) node =
        agentHasRun (askedTwice.map HistoryMessage.chat) node) ∧
      firstIntentText (h'.map HistoryMessage.chat) =
        firstIntentText (askedTwice.map HistoryMessage.chat) ∧
      isInitialCall (h'.map HistoryMessage.chat) =
        isInitialCall (askedTwice.map HistoryMessage.chat) ∧
      (h'.map (·.id)).Sublist (askedTwice.map (·.id)) ∧
      (∀ m ∈ askedTwice, m.kind = .human ∨ m.name = some "supervisor" → m ∈ h') ∧
      (∀ before m after name, askedTwice = before ++ m :: after → agentOf m = some name →
        (∀ x ∈ after, agentOf x ≠ some name) → ∃ m' ∈ h', Shortens m m') ∧
      addMessages h' (compactMessages h') = .ok h' := by
  let := Unicode.ascii
  exact compaction_invisible (by decide)

end Compaction

end Finguard
