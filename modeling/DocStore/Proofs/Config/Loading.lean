import DocStore.Config.Reader
import DocStore.Database.Basic
import DocStore.Proofs.Json.Spelling
import Mathlib.Logic.Function.Basic

/-!
# Loading a configuration

Settings are read one after the other, and at any time what has been read is a
part of the configuration that comes out. Main statement: neither the order of
the settings nor other members between them nor leaving out what is as by default
makes a difference, and what is loaded can address a database.
-/

set_option autoImplicit false

namespace DocStore

theorem FileContent.text_toByteArray (text : String) :
    FileContent.text (.ok text.toByteArray.data.toList) = .ok text := by
  have hread : readUtf8? text.toByteArray.data.toList = some text := by
    simp [readUtf8?, String.fromUTF8?, text.isValidUTF8, String.fromUTF8]
  rw [FileContent.text]
  simp only [hread]

theorem Setting.key_injective {s t : Setting} (h : s.key = t.key) : s = t := by
  have hkey := ofKey?_key s
  rw [h, ofKey?_key, Option.some.injEq] at hkey
  exact hkey.symm

theorem Database.open?_config (db : Database) : open? db.config db.channel = .ok db := by
  obtain ⟨config, channel, valid⟩ := db
  unfold open?
  split
  · next defect hdefect =>
    rw [show config.defect? = none from valid] at hdefect
    cases hdefect
  · rfl

namespace Config

theorem validate_eq_ok_iff {c : Config} : c.validate = .ok () ↔ c.Valid := by
  unfold validate Valid
  cases c.defect? <;> simp

theorem valid_of_load {content : FileContent} {c : Config} (h : load content = .ok c) :
    c.Valid := by
  unfold load at h
  split at h
  · cases h
  · split at h
    · cases h
    · split at h
      · cases h
      · next hvalid =>
        cases h
        exact validate_eq_ok_iff.mp hvalid

theorem load_of_ofTokens {content : FileContent} {text : String} {c : Config}
    (htext : content.text = .ok text) (hread : ofTokens (Token.scan text.toList) = .ok c)
    (hvalid : c.Valid) : load content = .ok c := by
  simp only [load, htext, hread, validate_eq_ok_iff.mpr hvalid]

def settingToJson (c : Config) : Setting → Json
  | .projectId => .str c.projectId
  | .databaseId => .str c.databaseId
  | .host => .str c.host
  | .ssl => .bool c.ssl
  | .authToken =>
    match c.authToken with
    | none => .null
    | some token => .str token
  | .timeoutSecs => .ofNat c.timeoutSecs.toNat

def Omissible (c : Config) : Setting → Prop
  | .projectId => False
  | .databaseId => c.databaseId = "(default)"
  | .host => c.host = "firestore.googleapis.com"
  | .ssl => c.ssl = true
  | .authToken => c.authToken = none
  | .timeoutSecs => c.timeoutSecs = 30

structure Describes (members : List (String × Json)) (c : Config) : Prop where
  once : ∀ s : Setting, (members.map Prod.fst).count s.key ≤ 1
  value : ∀ (s : Setting) (j : Json), (s.key, j) ∈ members → j = c.settingToJson s
  missing : ∀ s : Setting, s.key ∉ members.map Prod.fst → c.Omissible s

def Lists (items : List Json) (c : Config) : Prop :=
  ∃ count, items = (Setting.all.take count).map c.settingToJson ∧
    ∀ s ∈ Setting.all.drop count, c.Omissible s

theorem skipNext_nil (d : Draft) (rest : List Token) : skipNext d [] rest = readNext d rest := by
  match rest with
  | [] => rfl
  | .comma :: _ => simp only [skipNext, readNext]
  | .closeObject :: _ => simp only [skipNext, readNext]
  | .closeArray :: _ => simp only [skipNext, readNext]
  | .openArray :: _ | .openObject :: _ | .colon :: _ | .null :: _ | .bool _ :: _ | .number _ :: _
  | .text _ :: _ | .bad :: _ => rfl

theorem tokens_ne_closeArray (j : Json) (rest ts : List Token) :
    j.tokens ++ rest ≠ .closeArray :: ts := by
  match j with
  | .arr [] | .arr (_ :: _) | .obj [] | .obj (_ :: _) => simp [Json.tokens]
  | .null | .bool _ | .number _ | .str _ => simp [Json.tokens]

mutual

theorem skipValue_tokens (d : Draft) (opened : List Bracket) (rest : List Token) :
    (j : Json) → skipValue d opened (j.tokens ++ rest) = skipNext d opened rest
  | .null => rfl
  | .bool _ => rfl
  | .number _ => rfl
  | .str _ => rfl
  | .arr [] => rfl
  | .obj [] => rfl
  | .arr (item :: items) => by
    rw [Json.tokens]
    show skipValue d opened (.openArray :: (item.tokens ++ _ ++ rest)) = _
    rw [List.append_assoc, skipValue]
    · rw [skipValue_tokens d (.array :: opened) _ item, skipNext_itemTokens d opened rest items]
    · exact tokens_ne_closeArray item _
  | .obj ((key, value) :: members) => by
    rw [Json.tokens]
    show skipValue d opened (.openObject :: .text _ :: .colon :: (value.tokens ++ _ ++ rest)) = _
    rw [List.append_assoc, skipValue, skipValue_tokens d (.object :: opened) _ value,
      skipNext_memberTokens d opened rest members]

theorem skipNext_itemTokens (d : Draft) (opened : List Bracket) (rest : List Token) :
    (items : List Json) →
      skipNext d (.array :: opened) (Json.itemTokens items ++ rest) = skipNext d opened rest
  | [] => by
    show skipNext d (.array :: opened) (.closeArray :: rest) = _
    rw [skipNext]
  | item :: items => by
    rw [Json.itemTokens]
    show skipNext d (.array :: opened) (.comma :: (item.tokens ++ _ ++ rest)) = _
    rw [List.append_assoc, skipNext]
    show skipValue d (.array :: opened) _ = _
    rw [skipValue_tokens d (.array :: opened) _ item, skipNext_itemTokens d opened rest items]

theorem skipNext_memberTokens (d : Draft) (opened : List Bracket) (rest : List Token) :
    (members : List (String × Json)) →
      skipNext d (.object :: opened) (Json.memberTokens members ++ rest) = skipNext d opened rest
  | [] => by
    show skipNext d (.object :: opened) (.closeObject :: rest) = _
    rw [skipNext]
  | (key, value) :: members => by
    rw [Json.memberTokens]
    show skipNext d (.object :: opened)
      (.comma :: .text _ :: .colon :: (value.tokens ++ _ ++ rest)) = _
    rw [List.append_assoc, skipNext]
    show skipValue d (.object :: opened) _ = _
    rw [skipValue_tokens d (.object :: opened) _ value, skipNext_memberTokens d opened rest members]

end

def part (c : Config) (done : Setting → Bool) : Draft where
  projectId := if done .projectId then some c.projectId else none
  databaseId := if done .databaseId then some c.databaseId else none
  host := if done .host then some c.host else none
  ssl := if done .ssl then some c.ssl else none
  authToken := if done .authToken then some c.authToken else none
  timeoutSecs := if done .timeoutSecs then some c.timeoutSecs else none

theorem has_part (c : Config) (done : Setting → Bool) (s : Setting) :
    (c.part done).has s = done s := by
  cases s <;> simp only [part, Draft.has] <;> split <;> simp_all

/-- The step lemma: the written form of a setting is one token, and reading it makes the part larger
by that setting. -/
theorem read_part (c : Config) (s : Setting) :
    ∃ token, (c.settingToJson s).tokens = [token] ∧
      ∀ done, (c.part done).read s token = .ok (c.part (Function.update done s true)) := by
  cases s with
  | projectId => exact ⟨.text (some c.projectId), rfl, fun done => by simp [Draft.read, part]⟩
  | databaseId => exact ⟨.text (some c.databaseId), rfl, fun done => by simp [Draft.read, part]⟩
  | host => exact ⟨.text (some c.host), rfl, fun done => by simp [Draft.read, part]⟩
  | ssl => exact ⟨.bool c.ssl, rfl, fun done => by simp [Draft.read, part]⟩
  | authToken =>
    cases htoken : c.authToken with
    | none =>
      exact ⟨.null, by simp [settingToJson, htoken, Json.tokens], fun done => by
        simp [Draft.read, part, htoken]⟩
    | some token =>
      exact ⟨.text (some token), by simp [settingToJson, htoken, Json.tokens], fun done => by
        simp [Draft.read, part, htoken]⟩
  | timeoutSecs =>
    exact ⟨.number (some (.integer c.timeoutSecs.toNat)), rfl, fun done => by
      simp [Draft.read, part]⟩

theorem getD_part {α : Type} {b : Bool} {a default : α} (h : b = false → a = default) :
    (if b then some a else none).getD default = a := by
  cases b with
  | true => rfl
  | false => exact (h rfl).symm

theorem finish_part {c : Config} {done : Setting → Bool}
    (h : ∀ s, done s = false → c.Omissible s) : (c.part done).finish = .ok c := by
  have hproject : done .projectId = true := by
    by_contra hnot
    exact h .projectId (Bool.eq_false_iff.mpr hnot)
  simp only [Draft.finish, part, hproject, if_true, getD_part (h .databaseId), getD_part (h .host),
    getD_part (h .ssl), getD_part (h .authToken), getD_part (h .timeoutSecs)]

theorem close_part {c : Config} {done : Setting → Bool}
    (h : ∀ s, done s = false → c.Omissible s) : (c.part done).close [] = .ok c := by
  rw [Draft.close, finish_part h]
  exact if_pos rfl

theorem readMember_other {key : String} (hkey : Setting.ofKey? key = none) (d : Draft) (j : Json)
    (rest : List Token) :
    readMember d (.text (some key) :: .colon :: (j.tokens ++ rest)) = readNext d rest := by
  have hskip : readMember d (.text (some key) :: .colon :: (j.tokens ++ rest)) =
      skipValue d [] (j.tokens ++ rest) := by
    rw [readMember, hkey]
  rw [hskip, skipValue_tokens, skipNext_nil]

theorem readMember_setting {d d' : Draft} {s : Setting} {token : Token} (hnew : d.has s = false)
    (hread : d.read s token = .ok d') (rest : List Token) :
    readMember d (.text (some s.key) :: .colon :: token :: rest) = readNext d' rest := by
  simp only [readMember, Setting.ofKey?_key, hnew, hread]
  rfl

structure Completes (c : Config) (done : Setting → Bool) (members : List (String × Json)) :
    Prop where
  once : ∀ s : Setting, (members.map Prod.fst).count s.key ≤ if done s then 0 else 1
  value : ∀ (s : Setting) (j : Json), (s.key, j) ∈ members → j = c.settingToJson s
  missing : ∀ s : Setting, done s = false → s.key ∉ members.map Prod.fst → c.Omissible s

theorem Describes.completes {members : List (String × Json)} {c : Config}
    (h : Describes members c) : c.Completes (fun _ => false) members :=
  ⟨h.once, h.value, fun s _ => h.missing s⟩

theorem Completes.of_other {c : Config} {done : Setting → Bool} {key : String} {j : Json}
    {members : List (String × Json)} (hkey : Setting.ofKey? key = none)
    (h : c.Completes done ((key, j) :: members)) : c.Completes done members := by
  have hne : ∀ s : Setting, s.key ≠ key := by
    rintro s rfl
    rw [Setting.ofKey?_key] at hkey
    cases hkey
  refine ⟨fun s => ?_, fun s j' hj => h.value s j' (List.mem_cons_of_mem _ hj),
    fun s hdone hs => h.missing s hdone ?_⟩
  · have honce := h.once s
    rwa [List.map_cons, List.count_cons_of_ne (hne s).symm] at honce
  · rw [List.map_cons, List.mem_cons, not_or]
    exact ⟨hne s, hs⟩

theorem Completes.of_setting {c : Config} {done : Setting → Bool} {s : Setting} {j : Json}
    {members : List (String × Json)} (h : c.Completes done ((s.key, j) :: members)) :
    done s = false ∧ j = c.settingToJson s ∧
      c.Completes (Function.update done s true) members := by
  have honce := h.once s
  rw [List.map_cons, List.count_cons_self] at honce
  have hnew : done s = false := by
    cases hdone : done s with
    | false => rfl
    | true =>
      rw [hdone, if_pos rfl] at honce
      omega
  refine ⟨hnew, h.value s j (List.mem_cons_self ..), fun t => ?_,
    fun t j' hj => h.value t j' (List.mem_cons_of_mem _ hj), fun t hdone ht => ?_⟩
  · by_cases hts : t = s
    · subst hts
      rw [Function.update_self, if_pos rfl]
      rw [hnew] at honce
      simpa using honce
    · have hcount := h.once t
      rw [Function.update_of_ne hts]
      rwa [List.map_cons, List.count_cons_of_ne (fun hkey => hts (Setting.key_injective hkey.symm))]
        at hcount
  · have hts : t ≠ s := by
      rintro rfl
      rw [Function.update_self] at hdone
      cases hdone
    rw [Function.update_of_ne hts] at hdone
    refine h.missing t hdone ?_
    rw [List.map_cons, List.mem_cons, not_or]
    exact ⟨fun hkey => hts (Setting.key_injective hkey), ht⟩

/-- The run lemma: however the members are laid out, they complete what has been read. -/
theorem readNext_members {c : Config} {done : Setting → Bool} {members : List (String × Json)}
    (h : c.Completes done members) :
    readNext (c.part done) (Json.memberTokens members) = .ok c := by
  induction members generalizing done with
  | nil => exact close_part fun s hdone => h.missing s hdone List.not_mem_nil
  | cons member members ih =>
    obtain ⟨key, j⟩ := member
    show readMember (c.part done) (.text (some key) :: .colon :: (j.tokens ++ _)) = _
    cases hkey : Setting.ofKey? key with
    | none =>
      rw [readMember_other hkey]
      exact ih (h.of_other hkey)
    | some s =>
      obtain rfl : key = s.key := by
        have hfound := List.find?_some hkey
        exact (of_decide_eq_true hfound).symm
      obtain ⟨hnew, rfl, hrest⟩ := h.of_setting
      obtain ⟨token, htoken, hread⟩ := c.read_part s
      rw [htoken]
      show readMember (c.part done) (.text (some s.key) :: .colon :: token :: _) = _
      rw [readMember_setting ((c.has_part done s).trans hnew) (hread done)]
      exact ih hrest

theorem ofTokens_obj {c : Config} {members : List (String × Json)} (h : Describes members c) :
    ofTokens (Json.obj members).tokens = .ok c := by
  cases members with
  | nil => exact (h.missing .projectId List.not_mem_nil).elim
  | cons member members => exact readNext_members h.completes

theorem readElements_close {c : Config} {done : Setting → Bool}
    (h : ∀ s, done s = false → c.Omissible s) (settings : List Setting) :
    readElements (c.part done) settings [.closeArray] = .ok c := by
  rw [readElements]
  exact close_part h

/-- Each element is the setting whose turn it is; the array may end before the settings do. -/
theorem readElements_items {c : Config} {done : Setting → Bool} {settings : List Setting}
    {count : Nat} (h : ∀ s, done s = false → s ∉ settings.take count → c.Omissible s) :
    readElements (c.part done) settings
      (Json.itemTokens ((settings.take count).map c.settingToJson)) = .ok c := by
  induction settings generalizing done count with
  | nil =>
    rw [List.take_nil] at h ⊢
    exact readElements_close (fun s hdone => h s hdone List.not_mem_nil) []
  | cons s settings ih =>
    cases count with
    | zero => exact readElements_close (fun t hdone => h t hdone List.not_mem_nil) _
    | succ count =>
      obtain ⟨token, htoken, hread⟩ := c.read_part s
      rw [List.take_succ_cons, List.map_cons, Json.itemTokens, htoken]
      show readElements (c.part done) (s :: settings) (.comma :: token :: _) = _
      rw [readElements, hread]
      refine ih fun t hdone ht => ?_
      have hts : t ≠ s := by
        rintro rfl
        rw [Function.update_self] at hdone
        cases hdone
      rw [Function.update_of_ne hts] at hdone
      exact h t hdone (by simp [hts, ht])

theorem ofTokens_arr {c : Config} {items : List Json} (h : Lists items c) :
    ofTokens (Json.arr items).tokens = .ok c := by
  obtain ⟨count, rfl, hrest⟩ := h
  have hmissing : ∀ s : Setting, s ∉ Setting.all.take count → c.Omissible s := by
    intro s hs
    have hall : s ∈ Setting.all.take count ++ Setting.all.drop count := by
      rw [List.take_append_drop]
      cases s <;> decide
    exact hrest s ((List.mem_append.mp hall).resolve_left hs)
  cases count with
  | zero => exact (hmissing .projectId List.not_mem_nil).elim
  | succ count =>
    -- The first element is read like the others, as if a comma stood in front of it.
    have hread : readElements (c.part fun _ => false) Setting.all _ = .ok c :=
      readElements_items fun s _ => hmissing s
    exact hread

/-- A valid configuration is loaded from any text that is read as an object or as an array that
describes it, however its members are ordered, whatever stands between them and whichever settings
are left out that are as by default. Whatever is loaded is valid and opens a database of its name
and endpoint. -/
theorem loading_ignores_layout :
    (∀ (content : FileContent) (text : String) (c : Config), content.text = .ok text → c.Valid →
      (∀ members, Json.readWritten? text = some (.obj members) → Describes members c →
        load content = .ok c) ∧
      ∀ items, Json.readWritten? text = some (.arr items) → Lists items c →
        load content = .ok c) ∧
    ∀ (content : FileContent) (c : Config), load content = .ok c →
      c.validate = .ok () ∧ ∀ channel, ∃ db, Database.open? c channel = .ok db ∧ db.config = c ∧
        db.rootPath = c.rootPath ∧ db.endpoint = c.endpoint := by
  refine ⟨?layout, ?opens⟩
  case layout =>
    intro content text c htext hvalid
    constructor
    · intro members hread h
      refine load_of_ofTokens htext ?_ hvalid
      rw [Json.scan_of_readWritten? hread]
      exact ofTokens_obj h
    · intro items hread h
      refine load_of_ofTokens htext ?_ hvalid
      rw [Json.scan_of_readWritten? hread]
      exact ofTokens_arr h
  case opens =>
    intro content c hload
    have hvalid := valid_of_load hload
    refine ⟨validate_eq_ok_iff.mpr hvalid, fun channel => ?_⟩
    let db : Database := ⟨c, channel, hvalid⟩
    exact ⟨db, db.open?_config, rfl, rfl, rfl⟩

/-- Settings out of order with other members between them, two of which share a key while one holds
the key of a setting; and an array of two. -/
theorem loading_ignores_layout_interleaved :
    let file (text : String) : FileContent := .ok text.toByteArray.data.toList
    let object := "\x7b\"x\":[\x7b\"ssl\":1\x7d],\"ssl\":false,\n\"x\":3,\"project_id\":\"p\"\x7d"
    let array := "[\"p\",\"d\"]"
    let insecure : Config := { projectId := "p", ssl := false }
    let named : Config := { projectId := "p", databaseId := "d" }
    load (file object) = .ok insecure ∧ load (file array) = .ok named ∧
      ∃ db, Database.open? named 7 = .ok db ∧ db.rootPath = "projects/p/databases/d/documents" := by
  intro file object array insecure named
  obtain ⟨hlayout, hopens⟩ := loading_ignores_layout
  let members : List (String × Json) := [("x", .arr [.obj [("ssl", .ofNat 1)]]),
    ("ssl", .bool false), ("x", .ofNat 3), ("project_id", .str "p")]
  have hobject : Json.readWritten? object = some (.obj members) := by
    have htokens : Token.scan object.toList = (Json.obj members).tokens := by
      unfold object
      rfl
    rw [Json.readWritten?, htokens]
    rfl
  have hdescribes : Describes members insecure := by
    refine ⟨?_, ?_, ?_⟩
    · intro s
      cases s <;> decide
    · intro s j hj
      cases s <;> simp_all [members, Setting.key, settingToJson, insecure]
    · intro s hs
      cases s <;> simp_all [members, Setting.key, Omissible, insecure]
  have harray : Json.readWritten? array = some (.arr [.str "p", .str "d"]) := by
    unfold array
    rfl
  have hlists : Lists [.str "p", .str "d"] named := by
    refine ⟨2, rfl, ?_⟩
    intro s hs
    cases s <;> simp_all [Setting.all, Omissible, named]
  have htext : ∀ text, (file text).text = .ok text := FileContent.text_toByteArray
  have hnamed := (hlayout _ array named (htext array) (by decide)).2 _ harray hlists
  obtain ⟨db, hdb, -, hroot, -⟩ := (hopens _ named hnamed).2 7
  exact ⟨(hlayout _ object insecure (htext object) (by decide)).1 _ hobject hdescribes, hnamed, db,
    hdb, hroot.trans (by decide)⟩

end Config

end DocStore
