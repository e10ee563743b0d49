import DocStore.Proofs.Document.Faults
import DocStore.Proofs.Json.Order

/-!
# Which fault is reported

From a value the decoder goes down step by step, through arrays by index and
through maps by key. Main statement: it fails exactly if it meets a node at fault,
and then with the fault of the first one in this order, named after the steps that
lead to it, whatever comes later; of a document the name comes first, then the
fields and then the times.
-/

set_option autoImplicit false

namespace DocStore

namespace Wire

inductive Step.Before : Step → Step → Prop
  | item {i j : Nat} (h : i < j) : Before (item i) (item j)
  | entry {k l : String} (h : k < l) : Before (entry k) (entry l)

def routeName (start : String) (route : List Step) : String :=
  route.foldl (fun name step => name ++ step.text) start

inductive Visits : Json → List Step → Json → Prop
  | start (raw : Json) : Visits raw [] raw
  | descend {raw child node : Json} {step : Step} {route : List Step}
      (hstep : (step, child) ∈ children raw) (h : Visits child route node) :
      Visits raw (step :: route) node

/-- A fault at the end of a route, and none at a node before it. A route is before those that go on
from it and before those that turn off later, so nodes count in pre-order. -/
structure FirstFault (db : Database) (raw : Json) (route : List Step)
    (report : String → DocumentError) : Prop where
  fault : ∃ node, Visits raw route node ∧ Fault db node report
  first : ∀ route' node report', List.Lex Step.Before route' route → Visits raw route' node →
    ¬ Fault db node report'

def Sound (db : Database) (raw : Json) : Prop :=
  ∀ route node report, Visits raw route node → ¬ Fault db node report

inductive SameUntilFault (db : Database) : Json → Json → Prop
  | fault {raw : Json} {report : String → DocumentError} (h : Fault db raw report) :
      SameUntilFault db raw raw
  | descend {raw raw' child child' : Json} {step : Step} {before after after' : List (Step × Json)}
      (h : children raw = before ++ (step, child) :: after)
      (h' : children raw' = before ++ (step, child') :: after')
      (hchild : SameUntilFault db child child') : SameUntilFault db raw raw'

theorem elements_ordered (items : List Json) (start : Nat) :
    ((items.zipIdx start).map fun item => ((.item item.2, item.1) : Step × Json)).Pairwise
      fun c c' => c.1.Before c'.1 := by
  induction items generalizing start with
  | nil => exact List.Pairwise.nil
  | cons item items ih =>
    rw [List.zipIdx_cons, List.map_cons]
    apply List.Pairwise.cons _ (ih (start + 1))
    intro c hc
    obtain ⟨later, hlater, rfl⟩ := List.mem_map.mp hc
    exact .item (List.le_snd_of_mem_zipIdx hlater)

theorem children_ordered {raw : Json} (h : raw.Ordered) :
    (children raw).Pairwise fun c c' => c.1.Before c'.1 := by
  unfold children
  split
  · next members =>
    unfold elements
    split
    · exact elements_ordered _ 0
    · exact List.Pairwise.nil
  · next members =>
    generalize hfields : members.lookup "fields" = payload
    unfold entries
    split
    · next entries =>
      have hkeys : KeysOrdered entries := (h.payload.of_lookup hfields).members.1
      exact List.pairwise_map.mpr (hkeys.imp .entry)
    · exact List.Pairwise.nil
  · exact List.Pairwise.nil

theorem ordered_of_mem_children {raw : Json} (h : raw.Ordered) {c : Step × Json}
    (hc : c ∈ children raw) : c.2.Ordered := by
  rcases mem_children hc with ⟨members, items, rfl, hlookup, hmem⟩ |
    ⟨members, entries, rfl, hlookup, e, he, heq⟩
  · exact (h.payload.of_lookup hlookup).items c.2 hmem
  · rw [← heq]
    exact (h.payload.of_lookup hlookup).members.2 e he

theorem Step.Before.asymm {s t : Step} (h : s.Before t) : ¬ t.Before s := by
  intro h'
  cases h with
  | item h =>
    cases h' with
    | item h' => omega
  | entry h =>
    cases h' with
    | entry h' => exact String.lt_asymm h h'

end Wire

open Wire

theorem sound_of_decodeValue {db : Database} {field : String} {raw : Json} {v : Value}
    (h : decodeValue db field raw = .ok v) : Sound db raw := by
  intro route node report hvisits hfault
  induction hvisits generalizing field v with
  | start raw =>
    rw [decodeValue_of_fault hfault] at h
    cases h
  | @descend raw child node step route hstep _ ih =>
    rcases fault_or_decodes_children db raw with ⟨report', hraw⟩ | ⟨wrap, hwrap⟩
    · rw [decodeValue_of_fault hraw] at h
      cases h
    · rw [hwrap] at h
      obtain ⟨vs, hvs, -⟩ := map_eq_ok_iff.mp h
      obtain ⟨w, hw⟩ := exists_collect_eq_ok_iff.mp ⟨vs, hvs⟩ (step, child) hstep
      exact ih hw hfault

/-- A child that is decoded after its earlier siblings passes its first fault on. -/
theorem Wire.FirstFault.descend {db : Database} {raw child : Json} {step : Step} {route : List Step}
    {report : String → DocumentError} {before after : List (Step × Json)} (hraw : raw.Ordered)
    (hchildren : children raw = before ++ (step, child) :: after)
    (hlocal : ∀ report', ¬ Fault db raw report') (hbefore : ∀ c ∈ before, Sound db c.2)
    (h : FirstFault db child route report) : FirstFault db raw (step :: route) report := by
  obtain ⟨node, hnode, hfault⟩ := h.fault
  have hmem : (step, child) ∈ children raw := by simp [hchildren]
  refine ⟨⟨node, .descend hmem hnode, hfault⟩, ?_⟩
  intro route' node' report' hlex hvisits hfault'
  -- A node before the fault is the value itself, or below an earlier sibling of the child, or below
  -- the child; below a later sibling it would come after the fault.
  cases hvisits with
  | start _ => exact hlocal report' hfault'
  | @descend _ child' _ step' route' hstep' hvisits =>
    have hordered := children_ordered hraw
    rw [hchildren, List.pairwise_append, List.pairwise_cons] at hordered
    obtain ⟨-, ⟨hafter, -⟩, -⟩ := hordered
    rw [hchildren, List.mem_append, List.mem_cons] at hstep'
    rcases hstep' with hstep' | hstep' | hstep'
    · exact hbefore _ hstep' route' node' report' hvisits hfault'
    · cases hstep'
      cases hlex with
      | rel hlt => exact hlt.asymm hlt
      | cons hlex => exact h.first route' node' report' hlex hvisits hfault'
    · have hlater : step.Before step' := hafter _ hstep'
      cases hlex with
      | rel hlt => exact hlt.asymm hlater
      | cons hlex => exact hlater.asymm hlater

theorem firstFault_of_decodeValue {db : Database} {field : String} {raw : Json}
    {e : DocumentError} (hraw : raw.Ordered) (h : decodeValue db field raw = .error e) :
    ∃ route report, FirstFault db raw route report ∧ e = report (routeName field route) := by
  induction raw using childInduction generalizing field e with
  | h raw ih =>
    by_cases hlocal : ∃ report, Fault db raw report
    · obtain ⟨report, hreport⟩ := hlocal
      rw [decodeValue_of_fault hreport, Except.error.injEq] at h
      exact ⟨[], report, ⟨⟨raw, .start raw, hreport⟩, nofun⟩, h.symm⟩
    · obtain ⟨wrap, hwrap⟩ := (fault_or_decodes_children db raw).resolve_left hlocal
      rw [hwrap, map_eq_error_iff, collect_eq_error_iff] at h
      obtain ⟨before, ⟨step, child⟩, after, hchildren, hbefore, hchild⟩ := h
      have hmem : (step, child) ∈ children raw := by simp [hchildren]
      obtain ⟨route, report, hfirst, he⟩ :=
        ih (step, child) hmem (ordered_of_mem_children hraw hmem) hchild
      have hsound : ∀ c ∈ before, Sound db c.2 := by
        intro c hc
        obtain ⟨v, hv⟩ := hbefore c hc
        exact sound_of_decodeValue hv
      exact ⟨step :: route, report,
        hfirst.descend hraw hchildren (not_exists.mp hlocal) hsound, he⟩

theorem exists_decodeValue_of_sound {db : Database} {raw : Json} (hraw : raw.Ordered)
    (h : Sound db raw) (field : String) : ∃ v, decodeValue db field raw = .ok v := by
  cases hv : decodeValue db field raw with
  | ok v => exact ⟨v, rfl⟩
  | error e =>
    obtain ⟨route, report, hfirst, -⟩ := firstFault_of_decodeValue hraw hv
    obtain ⟨node, hnode, hfault⟩ := hfirst.fault
    exact absurd hfault (h route node report hnode)

theorem decodeValue_of_firstFault {db : Database} {raw : Json} {route : List Step}
    {report : String → DocumentError} (hraw : raw.Ordered) (h : FirstFault db raw route report)
    (field : String) : decodeValue db field raw = .error (report (routeName field route)) := by
  -- By induction on the route: each step takes the value to a child, and the name along with it.
  induction route generalizing raw field with
  | nil =>
    obtain ⟨node, hnode, hfault⟩ := h.fault
    cases hnode with
    | start _ => exact decodeValue_of_fault hfault field
  | cons step route ih =>
    obtain ⟨node, hnode, hfault⟩ := h.fault
    cases hnode with
    | @descend _ child _ _ _ hstep hnode =>
      have hlocal : ¬ ∃ report, Fault db raw report := by
        rintro ⟨report', hreport⟩
        exact h.first [] raw report' .nil (.start raw) hreport
      obtain ⟨wrap, hwrap⟩ := (fault_or_decodes_children db raw).resolve_left hlocal
      obtain ⟨before, after, hchildren⟩ := List.append_of_mem hstep
      have hordered := children_ordered hraw
      rw [hchildren, List.pairwise_append] at hordered
      have hbefore : ∀ c ∈ before, ∃ v, decodeChild db field c = .ok v := by
        intro c hc
        have hc' : c ∈ children raw := by simp [hchildren, hc]
        have hlt : c.1.Before step := hordered.2.2 c hc (step, child) (List.mem_cons_self ..)
        have hsound : Sound db c.2 := fun route' node' report' hvisits =>
          h.first (c.1 :: route') node' report' (.rel hlt) (.descend hc' hvisits)
        exact exists_decodeValue_of_sound (ordered_of_mem_children hraw hc') hsound _
      have hfirst : FirstFault db child route report :=
        ⟨⟨node, hnode, hfault⟩, fun route' node' report' hlex hvisits =>
          h.first (step :: route') node' report' (.cons hlex) (.descend hstep hvisits)⟩
      have hchild : decodeChild db field (step, child) =
          .error (report (routeName field (step :: route))) :=
        ih (ordered_of_mem_children hraw hstep) hfirst (field ++ step.text)
      rw [hwrap, map_eq_error_iff, collect_eq_error_iff]
      exact ⟨before, (step, child), after, hchildren, hbefore, hchild⟩

theorem decodeValue_eq_error_iff {db : Database} {field : String} {raw : Json}
    {e : DocumentError} (hraw : raw.Ordered) : decodeValue db field raw = .error e ↔
      ∃ route report, FirstFault db raw route report ∧ e = report (routeName field route) := by
  constructor
  · exact firstFault_of_decodeValue hraw
  · rintro ⟨route, report, hfirst, rfl⟩
    exact decodeValue_of_firstFault hraw hfirst field

/-- A value without a fault is one of the grammar of typed values, and the other way round. -/
theorem isTyped_iff_sound {db : Database} {raw : Json} (hraw : raw.Ordered) :
    IsTyped db .unchecked raw ↔ Sound db raw := by
  constructor
  · intro h
    obtain ⟨v, hv⟩ := exists_decodeValue h ""
    exact sound_of_decodeValue hv
  · intro h
    obtain ⟨v, hv⟩ := exists_decodeValue_of_sound hraw h ""
    exact isTyped_of_decodeValue hv

/-- What comes after the fault does not matter. -/
theorem Wire.SameUntilFault.decodeValue_eq {db : Database} {raw raw' : Json}
    (h : SameUntilFault db raw raw') (field : String) :
    ∃ e, decodeValue db field raw = .error e ∧ decodeValue db field raw' = .error e := by
  induction h generalizing field with
  | @fault raw report h => exact ⟨_, decodeValue_of_fault h field, decodeValue_of_fault h field⟩
  | @descend raw raw' child child' step before after after' h h' _ ih =>
    have hne : children raw ≠ [] := by simp [h]
    have hne' : children raw' ≠ [] := by simp [h']
    obtain ⟨wrap, hwrap⟩ := decodesChildren_of_children db hne
    obtain ⟨wrap', hwrap'⟩ := decodesChildren_of_children db hne'
    obtain ⟨e, he, he'⟩ := ih (field ++ step.text)
    have hchild : decodeChild db field (step, child) = .error e := he
    have hchild' : decodeChild db field (step, child') = .error e := he'
    simp only [hwrap, hwrap', h, h', map_eq_error_iff, collect_append_of_error hchild,
      collect_append_of_error hchild']
    cases collect (decodeChild db field) before with
    | error e' => exact ⟨e', rfl, rfl⟩
    | ok vs => exact ⟨e, rfl, rfl⟩

namespace Wire

def HasName (db : Database) (raw : Json) : Prop :=
  ∃ s r, raw.get? "name" = some (.str s) ∧ db.referenceFromName? s = some r ∧
    r.isDocument = true

def HasFields (db : Database) (raw : Json) : Prop :=
  raw.get? "fields" = none ∨
    ∃ members, raw.get? "fields" = some (.obj members) ∧ ∀ m ∈ members, Sound db m.2

def HasTime (raw : Json) (key : String) : Prop :=
  ∀ s, raw.get? key = some (.str s) → ∃ t, Timestamp.read? s = some t

inductive DocumentFault (db : Database) (raw : Json) : DocumentError → Prop
  | missingName (h : ∀ s, raw.get? "name" ≠ some (.str s)) : DocumentFault db raw .missingName
  | name {s : String} (h : raw.get? "name" = some (.str s))
      (hforeign : ∀ r, db.referenceFromName? s = some r → r.isDocument = false) :
      DocumentFault db raw (.invalidName s)
  | fields {payload : Json} (hname : HasName db raw) (h : raw.get? "fields" = some payload)
      (hmembers : ∀ members, payload ≠ .obj members) :
      DocumentFault db raw (.unsupported "fields" .fieldsNotObject)
  | field {members : List (String × Json)} {key : String} {payload : Json} {route : List Step}
      {report : String → DocumentError} (hname : HasName db raw)
      (h : raw.get? "fields" = some (.obj members)) (hfield : (key, payload) ∈ members)
      (hbefore : ∀ m ∈ members, m.1 < key → Sound db m.2)
      (hfirst : FirstFault db payload route report) :
      DocumentFault db raw (report (routeName key route))
  | createTime {s : String} (hname : HasName db raw) (hfields : HasFields db raw)
      (h : raw.get? "createTime" = some (.str s)) (ht : Timestamp.read? s = none) :
      DocumentFault db raw (.invalidTimestamp s)
  | updateTime {s : String} (hname : HasName db raw) (hfields : HasFields db raw)
      (hcreate : HasTime raw "createTime") (h : raw.get? "updateTime" = some (.str s))
      (ht : Timestamp.read? s = none) : DocumentFault db raw (.invalidTimestamp s)

end Wire

namespace Document

theorem decodeName_eq_error_iff {db : Database} {raw : Json} {e : DocumentError} :
    decodeName db raw = .error e ↔
      (∀ s, raw.get? "name" ≠ some (.str s)) ∧ e = .missingName ∨
        ∃ s, raw.get? "name" = some (.str s) ∧
          (∀ r, db.referenceFromName? s = some r → r.isDocument = false) ∧ e = .invalidName s := by
  by_cases htext : ∃ s, raw.get? "name" = some (.str s)
  · obtain ⟨s, hs⟩ := htext
    cases hr : db.referenceFromName? s with
    | none => simp [decodeName, decodeReference, Json.str?, hs, hr, @eq_comm _ e]
    | some r =>
      cases hdocument : r.isDocument <;>
        simp [decodeName, decodeReference, Json.str?, hs, hr, hdocument, @eq_comm _ e]
  · have hbind : (raw.get? "name").bind Json.str? = none := by
      rw [Option.eq_none_iff_forall_ne_some]
      intro s hs
      obtain ⟨payload, hpayload, hstr⟩ := Option.bind_eq_some_iff.mp hs
      exact htext ⟨s, by rw [hpayload, Json.str?_eq_some_iff.mp hstr]⟩
    have hnot : ∀ s, raw.get? "name" ≠ some (.str s) := not_exists.mp htext
    simp [decodeName, hbind, hnot, @eq_comm _ e]

theorem decodeTime_eq_error_iff {key : String} {raw : Json} {e : DocumentError} :
    decodeTime key raw = .error e ↔
      ∃ s, raw.get? key = some (.str s) ∧ Timestamp.read? s = none ∧ e = .invalidTimestamp s := by
  unfold decodeTime
  cases hget : raw.get? key with
  | none => simp
  | some payload =>
    cases payload with
    | str s =>
      cases ht : Timestamp.read? s <;> simp [Json.str?, decodeTimestamp, ht, Except.map, eq_comm]
    | _ => simp [Json.str?]

theorem decodeEntries_eq_error_iff {db : Database} {members : List (String × Json)}
    {e : DocumentError} (h : (Json.obj members).Ordered) :
    decodeEntries db none members = .error e ↔
      ∃ key payload route report, (key, payload) ∈ members ∧
        (∀ m ∈ members, m.1 < key → Sound db m.2) ∧ FirstFault db payload route report ∧
        e = report (routeName key route) := by
  obtain ⟨hkeys, hvalues⟩ := h.members
  rw [decodeEntries_eq_collect, map_eq_error_iff, collect_eq_error_iff]
  constructor
  · rintro ⟨before, ⟨key, payload⟩, after, rfl, hbefore, hfault⟩
    have hmem : (key, payload) ∈ before ++ (key, payload) :: after := by simp
    obtain ⟨route, report, hfirst, he⟩ :=
      (decodeValue_eq_error_iff (hvalues (key, payload) hmem)).mp hfault
    refine ⟨key, payload, route, report, hmem, ?_, hfirst, he⟩
    intro m hm hlt
    rw [KeysOrdered, List.pairwise_append, List.pairwise_cons] at hkeys
    rcases List.mem_append.mp hm with hm | hm
    · obtain ⟨v, hv⟩ := hbefore m hm
      exact sound_of_decodeValue hv
    · rcases List.mem_cons.mp hm with rfl | hm
      · exact absurd hlt (String.lt_irrefl key)
      · exact absurd (hkeys.2.1.1 m hm) (String.lt_asymm hlt)
  · rintro ⟨key, payload, route, report, hmem, hsound, hfirst, rfl⟩
    obtain ⟨before, after, rfl⟩ := List.append_of_mem hmem
    refine ⟨before, (key, payload), after, rfl, ?_, ?_⟩
    · intro m hm
      have hm' : m ∈ before ++ (key, payload) :: after := List.mem_append_left _ hm
      have hlt : m.1 < key :=
        (List.pairwise_append.mp hkeys).2.2 m hm (key, payload) (List.mem_cons_self ..)
      exact exists_decodeValue_of_sound (hvalues m hm') (hsound m hm' hlt) _
    · exact decodeValue_of_firstFault (hvalues (key, payload) hmem) hfirst key

theorem decode_eq_error_iff {db : Database} {raw : Json} {e : DocumentError} :
    decode db raw = .error e ↔
      decodeName db raw = .error e ∨ (∃ r, decodeName db raw = .ok r) ∧
        (decodeAllFields db raw = .error e ∨ (∃ fields, decodeAllFields db raw = .ok fields) ∧
          (decodeTime "createTime" raw = .error e ∨
            (∃ time, decodeTime "createTime" raw = .ok time) ∧
              decodeTime "updateTime" raw = .error e)) := by
  have hpure : ∀ d : Document, (pure d : Except DocumentError Document) ≠ .error e := nofun
  simp only [decode, bind_eq_error_iff, hpure, and_false, exists_false, or_false,
    exists_and_right]

theorem decodeAllFields_eq_error_iff {db : Database} {raw : Json} {e : DocumentError}
    (h : raw.Ordered) : decodeAllFields db raw = .error e ↔
      (∃ payload, raw.get? "fields" = some payload ∧ (∀ members, payload ≠ .obj members) ∧
        e = .unsupported "fields" .fieldsNotObject) ∨
      ∃ members, raw.get? "fields" = some (.obj members) ∧
        ∃ key payload route report, (key, payload) ∈ members ∧
          (∀ m ∈ members, m.1 < key → Sound db m.2) ∧ FirstFault db payload route report ∧
          e = report (routeName key route) := by
  have hkey : raw.get? "fields" = raw.get? fieldsKey := rfl
  rw [hkey]
  unfold decodeAllFields
  cases hget : raw.get? fieldsKey with
  | none => simp
  | some payload =>
    cases payload with
    | obj members =>
      have hmembers : (Json.obj members).Ordered := h.of_get? hget
      simp [decodeEntries_eq_error_iff hmembers]
    | _ => simp [fieldsKey, @eq_comm _ e]

theorem exists_decodeAllFields_iff_hasFields {db : Database} {raw : Json} (h : raw.Ordered) :
    (∃ fields, decodeAllFields db raw = .ok fields) ↔ HasFields db raw := by
  rw [exists_decodeAllFields_iff, HasFields]
  apply or_congr_right
  apply exists_congr
  intro members
  apply and_congr_right
  intro hmembers
  apply forall₂_congr
  intro m hm
  exact isTyped_iff_sound ((h.of_get? hmembers).members.2 m hm)

theorem exists_decodeTime_iff_hasTime {key : String} {raw : Json} :
    (∃ time, decodeTime key raw = .ok time) ↔ HasTime raw key := by
  constructor
  · rintro ⟨time, h⟩ s hs
    cases ht : Timestamp.read? s with
    | some t => exact ⟨t, rfl⟩
    | none =>
      rw [decodeTime_eq_error_iff.mpr ⟨s, hs, ht, rfl⟩] at h
      cases h
  · intro h
    cases htime : decodeTime key raw with
    | ok time => exact ⟨time, rfl⟩
    | error e =>
      obtain ⟨s, hs, hnone, -⟩ := decodeTime_eq_error_iff.mp htime
      obtain ⟨t, ht⟩ := h s hs
      rw [ht] at hnone
      cases hnone

theorem decode_eq_error_iff_documentFault {db : Database} {raw : Json} {e : DocumentError}
    (hraw : raw.Ordered) : decode db raw = .error e ↔ DocumentFault db raw e := by
  rw [decode_eq_error_iff, exists_decodeName_iff, exists_decodeAllFields_iff_hasFields hraw,
    exists_decodeTime_iff_hasTime, decodeName_eq_error_iff, decodeAllFields_eq_error_iff hraw,
    decodeTime_eq_error_iff, decodeTime_eq_error_iff]
  constructor
  · rintro ((⟨h, rfl⟩ | ⟨s, h, hforeign, rfl⟩) | ⟨hname, h⟩)
    · exact .missingName h
    · exact .name h hforeign
    rcases h with (⟨payload, h, hmembers, rfl⟩ | h) | ⟨hfields, h⟩
    · exact .fields hname h hmembers
    · obtain ⟨members, h, key, payload, route, report, hfield, hbefore, hfirst, rfl⟩ := h
      exact .field hname h hfield hbefore hfirst
    rcases h with ⟨s, h, ht, rfl⟩ | ⟨hcreate, s, h, ht, rfl⟩
    · exact .createTime hname hfields h ht
    · exact .updateTime hname hfields hcreate h ht
  · intro h
    cases h with
    | missingName h => exact Or.inl (Or.inl ⟨h, rfl⟩)
    | name h hforeign => exact Or.inl (Or.inr ⟨_, h, hforeign, rfl⟩)
    | fields hname h hmembers =>
      exact Or.inr ⟨hname, Or.inl (Or.inl ⟨_, h, hmembers, rfl⟩)⟩
    | field hname h hfield hbefore hfirst =>
      exact Or.inr ⟨hname, Or.inl (Or.inr ⟨_, h, _, _, _, _, hfield, hbefore, hfirst, rfl⟩)⟩
    | createTime hname hfields h ht =>
      exact Or.inr ⟨hname, Or.inr ⟨hfields, Or.inl ⟨_, h, ht, rfl⟩⟩⟩
    | updateTime hname hfields hcreate h ht =>
      exact Or.inr ⟨hname, Or.inr ⟨hfields, Or.inr ⟨hcreate, _, h, ht, rfl⟩⟩⟩

end Document

/-- Decoding fails exactly if some node is at fault, and reports the first one in pre-order under
the name that the steps to it make; what comes later does not matter. A document is checked in the
order of its name, its fields and its times. -/
theorem decode_reports_first_fault (db : Database) {raw : Json} (hraw : raw.Ordered) :
    (∀ field, (∃ e, decodeValue db field raw = .error e) ↔
      ∃ route node report, Visits raw route node ∧ Fault db node report) ∧
    (∀ field e, decodeValue db field raw = .error e ↔
      ∃ route report, FirstFault db raw route report ∧ e = report (routeName field route)) ∧
    (∀ field name fault, decodeValue db field raw = .error (.unsupported name fault) →
      ∃ route report, FirstFault db raw route report ∧
        report (routeName field route) = .unsupported name fault ∧ name = routeName field route) ∧
    (∀ raw', SameUntilFault db raw raw' →
      ∀ field, decodeValue db field raw' = decodeValue db field raw) ∧
    ∀ e, Document.decode db raw = .error e ↔ DocumentFault db raw e := by
  refine ⟨?fails, ?first, ?named, ?later, ?document⟩
  case fails =>
    intro field
    constructor
    · rintro ⟨e, he⟩
      obtain ⟨route, report, hfirst, -⟩ := firstFault_of_decodeValue hraw he
      obtain ⟨node, hnode, hfault⟩ := hfirst.fault
      exact ⟨route, node, report, hnode, hfault⟩
    · rintro ⟨route, node, report, hnode, hfault⟩
      cases hv : decodeValue db field raw with
      | ok v => exact absurd hfault (sound_of_decodeValue hv route node report hnode)
      | error e => exact ⟨e, rfl⟩
  case first =>
    intro field e
    exact decodeValue_eq_error_iff hraw
  case named =>
    intro field name fault h
    obtain ⟨route, report, hfirst, he⟩ := firstFault_of_decodeValue hraw h
    obtain ⟨node, -, hfault⟩ := hfirst.fault
    exact ⟨route, report, hfirst, he.symm, hfault.name_eq he.symm⟩
  case later =>
    intro raw' h field
    obtain ⟨e, he, he'⟩ := h.decodeValue_eq field
    rw [he, he']
  case document =>
    intro e
    exact Document.decode_eq_error_iff_documentFault hraw

def faultyArray (later : List Json) : Json :=
  .obj [("arrayValue", .obj [("values", .arr
    (.obj [("booleanValue", .bool true)] :: .obj [("booleanValue", .str "x")] :: later))])]

def faultyMap (later : List Json) (last : String × Json) : Json :=
  .obj [("mapValue", .obj [("fields", .obj [("a", faultyArray later), last])])]

theorem sameUntilFault_faultyMap (db : Database) (later later' : List Json)
    (last last' : String × Json) :
    SameUntilFault db (faultyMap later last) (faultyMap later' last') := by
  have hmap : ∀ later last, children (faultyMap later last) =
      [] ++ (.entry "a", faultyArray later) :: [(.entry last.1, last.2)] := fun _ _ => rfl
  have harray : ∀ later, children (faultyArray later) =
      [(.item 0, .obj [("booleanValue", .bool true)])] ++
        (.item 1, .obj [("booleanValue", .str "x")]) ::
          (later.zipIdx 2).map fun item => (.item item.2, item.1) := fun _ => rfl
  exact .descend (hmap later last) (hmap later' last')
    (.descend (harray later) (harray later') (.fault (.boolean nofun)))

def faultyDocument : Json :=
  .obj [("createTime", .str "x"), ("fields", .obj [("f", faultyMap [] ("b", .null))]),
    ("name", .str (Database.sample.reference "users/u1").name)]

theorem decode_reports_first_fault_nested :
    let db := Database.sample
    let value := faultyMap [] ("b", .null)
    (∃ route node report, Visits value route node ∧ Fault db node report) ∧
      (∃ route report, FirstFault db value route report ∧ "f.a[1]" = routeName "f" route) ∧
      decodeValue db "f" (faultyMap [.null] ("c", .obj [])) =
        .error (.unsupported "f.a[1]" .notBoolean) ∧
      Document.decode db faultyDocument = .error (.unsupported "f.a[1]" .notBoolean) := by
  intro db value
  have hsorted : value.sorted = value := rfl
  have hvalue : value.Ordered := hsorted ▸ Json.ordered_sorted value
  have hsorted' : faultyDocument.sorted = faultyDocument := rfl
  have hdocument : faultyDocument.Ordered := hsorted' ▸ Json.ordered_sorted faultyDocument
  obtain ⟨hfails, hfirst, hnamed, hlater, -⟩ := decode_reports_first_fault db hvalue
  obtain ⟨-, -, -, -, hreport⟩ := decode_reports_first_fault db hdocument
  have herror : decodeValue db "f" value = .error (.unsupported "f.a[1]" .notBoolean) := rfl
  have hname : HasName db faultyDocument := by
    refine ⟨_, Database.sample.reference "users/u1", rfl, ?_, by decide⟩
    exact Database.referenceFromName?_name (Database.sample.reference "users/u1")
  have hfields : faultyDocument.get? "fields" = some (.obj [("f", value)]) := rfl
  have hsame := sameUntilFault_faultyMap db [] [.null] ("b", .null) ("c", .obj [])
  obtain ⟨route, report, hroute, he⟩ := (hfirst "f" _).mp herror
  refine ⟨(hfails "f").mp ⟨_, herror⟩, ?_, ?_, ?_⟩
  · obtain ⟨route', report', hroute', -, hname⟩ := hnamed "f" _ _ herror
    exact ⟨route', report', hroute', hname⟩
  · rw [hlater _ hsame "f", herror]
  · rw [he, hreport]
    apply DocumentFault.field hname hfields (List.mem_singleton.mpr rfl) _ hroute
    intro m hm hlt
    rw [List.mem_singleton.mp hm] at hlt
    exact absurd hlt (String.lt_irrefl "f")

end DocStore
