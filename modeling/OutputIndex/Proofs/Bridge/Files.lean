import OutputIndex.Bridge.Files
import OutputIndex.Proofs.Index.Bootstrap
import OutputIndex.Proofs.Json.Text
import OutputIndex.Proofs.Ledger.Json

/-!
# Files and lists

A node that is told of by files (`Bridge.Tells`) is the node that is known from lists
(`Bridge.ofFiles_eq_ofLists`), so an index makes the same of both.  The lines of a file hold values,
each in its compact form, with any number of blank lines among them (`Lines.Holds`).  What is read
of the lines that hold some values is these values, whatever comes after them
(`Lines.Holds.items`): a bad line is delivered as an error in its own place, so a follower has then
applied what stands before it.
-/

namespace OutputIndex

/-! ## Ledger data as plain documents -/

section Plain

open Json (Plain)

attribute [simp] Json.Plain.natural Json.Plain.text Json.Plain.array Json.Plain.ofFields

@[simp] lemma Json.plain_ofVariant {name : String} {fields : List (String × Json)}
    (h : ∀ field ∈ fields, Plain field.2) : Plain (.ofVariant name fields) :=
  .ofFields (List.forall_mem_singleton.2 (.ofFields h))

@[simp] lemma Json.plain_ofBytes (bytes : Bytes) : Plain (.ofBytes bytes) := .text _

@[simp] lemma Identifier.plain_toJson {kind : IdentifierKind} (id : Identifier kind) :
    Plain id.toJson := .text _

@[simp] lemma Address.plain_toJson (address : Address) : Plain address.toJson := .text _

@[simp] lemma UnlockCondition.plain_toJson (condition : UnlockCondition) :
    Plain condition.toJson := by
  cases condition <;> simp [toJson]

@[simp] lemma UnlockConditions.plain_toJson (conditions : UnlockConditions) :
    Plain conditions.toJson := by
  simp [toJson]

@[simp] lemma Feature.plain_toJson (feature : Feature) : Plain feature.toJson := by
  cases feature <;> simp [toJson]

@[simp] lemma Features.plain_toJson (features : Features) : Plain features.toJson := by
  simp [toJson]

@[simp] lemma TokenScheme.plain_toJson (scheme : TokenScheme) : Plain scheme.toJson := by
  cases scheme
  simp [toJson]

@[simp] lemma Output.plain_toJson (output : Output) : Plain output.toJson := by
  cases output with
  | basic output => simp [toJson, BasicOutput.toJson]
  | account output => simp [toJson, AccountOutput.toJson]
  | anchor output => simp [toJson, AnchorOutput.toJson]
  | foundry output => simp [toJson, FoundryOutput.toJson]
  | nft output => simp [toJson, NftOutput.toJson]
  | delegation output => simp [toJson, DelegationOutput.toJson]

@[simp] lemma LedgerOutput.plain_toJson (output : LedgerOutput) : Plain output.toJson := by
  simp [toJson]

@[simp] lemma LedgerSpent.plain_toJson (spent : LedgerSpent) : Plain spent.toJson := by
  simp [toJson]

@[simp] lemma LedgerUpdate.plain_toJson (update : LedgerUpdate) : Plain update.toJson := by
  simp [toJson]

@[simp] lemma LedgerEvent.plain_toJson (event : LedgerEvent) : Plain event.toJson := by
  cases event <;> simp [toJson]

@[simp] lemma NodeInfo.plain_toJson (info : NodeInfo) : Plain info.toJson := by
  simp [toJson]

end Plain

namespace Json

variable {α : Type} {write : α → Json} {read : Json → Option α} {Fits : α → Prop} {value : α}

/-- A value is what is read from its compact text. -/
def Restores (write : α → Json) (read : Json → Option α) (value : α) : Prop :=
  (ofBytes? (write value).compactBytes).bind read = some value

/-- Exactly the values that fit are read from their compact text. -/
lemma Inverts.restores_iff (h : Inverts write read Fits) (hplain : ∀ value, Plain (write value)) :
    Restores write read value ↔ Fits value := by
  have htext : ofBytes? (write value).compactBytes = some (write value) := by
    have hread : ofBytes? ([] ++ (write value).compactBytes ++ []) = some (write value) :=
      ofBytes?_compactBytes (hplain value) nofun nofun
    simpa using hread
  rw [Restores, htext, Option.bind_some]
  exact ⟨h.fits _ value, h.read_write value⟩

end Json

/-! ## Lines -/

namespace Lines

variable {α : Type} {write : α → Json} {read : Json → Option α} {value : α} {values : List α}
  {line text rest last : Bytes}

/-- A text begins with a line, and the rest comes after its end.  A line feed ends a line, perhaps
with a carriage return before it, and the last line needs no end. -/
inductive Begins (line : Bytes) : Bytes → Bytes → Prop where
  | last : Begins line line []
  | feed (hreturn : line.getLast? ≠ some 0x0d) (rest : Bytes) :
    Begins line (line ++ 0x0a :: rest) rest
  | returnFeed (rest : Bytes) : Begins line (line ++ 0x0d :: 0x0a :: rest) rest

lemma split_append_feed (seen : Bytes) (h : 0x0a ∉ line) (rest : Bytes) :
    split seen (line ++ 0x0a :: rest) = dropReturn (seen.reverse ++ line) :: split [] rest := by
  induction line generalizing seen with
  | nil => simp [split]
  | cons byte line ih =>
    obtain ⟨hbyte, hline⟩ := not_or.1 (List.mem_cons.not.1 h)
    rw [List.cons_append, split, if_neg (Ne.symm hbyte), ih (byte :: seen) hline]
    simp

lemma split_of_not_mem (seen : Bytes) (h : 0x0a ∉ line) :
    split seen line = if (seen.reverse ++ line).isEmpty then [] else [seen.reverse ++ line] := by
  induction line generalizing seen with
  | nil => simp [split]
  | cons byte line ih =>
    obtain ⟨hbyte, hline⟩ := not_or.1 (List.mem_cons.not.1 h)
    rw [split, if_neg (Ne.symm hbyte), ih (byte :: seen) hline]
    simp

/-- A text holds what its first line holds and what the rest holds. -/
lemma items_of_begins (hfeed : 0x0a ∉ line) (h : Begins line text rest) :
    items read text = (item? read line).toList ++ items read rest := by
  cases h with
  | last =>
    have hempty : item? read [] = none := by
      have hdecode : Utf8.decode [] = .ok "" := Utf8.decode_eq_ok_iff.2 rfl
      simp [item?, hdecode]
    cases line with
    | nil => simp [items, split, hempty]
    | cons byte line =>
      rw [items, split_of_not_mem [] hfeed]
      cases hitem : item? read (byte :: line) <;> simp [items, split, hitem]
  | feed hreturn =>
    rw [items, split_append_feed [] hfeed, List.reverse_nil, List.nil_append, dropReturn,
      if_neg hreturn]
    cases hitem : item? read line <;> simp [items, hitem]
  | returnFeed =>
    have hmem : (0x0a : UInt8) ∉ line ++ [0x0d] := by
      simpa using hfeed
    have htext : line ++ 0x0d :: 0x0a :: rest = (line ++ [0x0d]) ++ 0x0a :: rest := by simp
    have hdrop : dropReturn (line ++ [0x0d]) = line := by simp [dropReturn]
    rw [htext, items, split_append_feed [] hmem, List.reverse_nil, List.nil_append, hdrop]
    cases hitem : item? read line <;> simp [items, hitem]

/-- A line of white space. -/
def Blank (line : Bytes) : Prop :=
  ∃ text : String, Utf8.encode text = line ∧ '\n' ∉ text.toList ∧ text.toList.all isSpace = true

/-- A line of a text that is not blank and from which no value is read. -/
structure Bad (read : Json → Option α) (line : Bytes) : Prop where
  feed : 0x0a ∉ line
  text : ∃ text, Utf8.decode line = .ok text ∧ text.toList.all isSpace = false
  unread : (Json.ofBytes? line).bind read = none

/-- A text begins with lines that hold some values, one on each line that is not blank, and the rest
comes after them. -/
inductive Holds (write : α → Json) : List α → Bytes → Bytes → Prop where
  | nil (rest : Bytes) : Holds write [] rest rest
  | blank {line text rest last : Bytes} {values : List α} (hblank : Blank line)
      (hbegins : Begins line text rest) (hrest : Holds write values rest last) :
      Holds write values text last
  | item {value : α} {text rest last : Bytes} {values : List α}
      (hbegins : Begins (write value).compactBytes text rest)
      (hrest : Holds write values rest last) : Holds write (value :: values) text last

lemma Blank.not_mem_feed (h : Blank line) : 0x0a ∉ line := by
  obtain ⟨text, rfl, hfeed, -⟩ := h
  intro hmem
  rw [Utf8.encode_eq_flatMap] at hmem
  obtain ⟨c, hc, hbyte⟩ := List.mem_flatMap.1 hmem
  have hnat := Utf8.toNat_of_mem_utf8EncodeChar (by decide) hbyte
  obtain rfl : c = '\n' := Char.toNat_inj.1 hnat
  exact hfeed hc

lemma Blank.item? (h : Blank line) : item? read line = none := by
  obtain ⟨text, hencode, -, hspace⟩ := h
  rw [Lines.item?, Utf8.decode_eq_ok_iff.2 hencode]
  simp only [hspace, if_true]

lemma Bad.item? (h : Bad read line) : item? read line = some (.error .json) := by
  obtain ⟨text, hdecode, hspace⟩ := h.text
  rw [Lines.item?, hdecode]
  simp [hspace, h.unread]

/-- The compact form of a document is no white space. -/
lemma exists_decode_compactBytes {json : Json} (h : Json.Plain json) :
    Utf8.decode json.compactBytes = .ok json.compact ∧
      json.compact.toList.all isSpace = false := by
  refine ⟨Utf8.decode_eq_ok_iff.2 rfl, ?_⟩
  obtain ⟨first, more, hcons, hlow, hhigh, -⟩ := h.exists_cons
  have hmem : first ∈ json.compactBytes := hcons ▸ List.mem_cons_self
  rw [Json.compactBytes, Utf8.encode_eq_flatMap] at hmem
  obtain ⟨c, hc, hbyte⟩ := List.mem_flatMap.1 hmem
  have hascii : first < 0x80 := UInt8.lt_trans hhigh (by decide)
  have hnat := Utf8.toNat_of_mem_utf8EncodeChar hascii hbyte
  rw [UInt8.le_iff_toNat_le, ← hnat] at hlow
  rw [UInt8.lt_iff_toNat_lt, ← hnat] at hhigh
  refine List.all_eq_false.2 ⟨c, hc, ?_⟩
  have hlow : 0x21 ≤ c.toNat := hlow
  have hhigh : c.toNat < 0x7f := hhigh
  simp [isSpace]
  omega

lemma item?_compactBytes (hplain : Json.Plain (write value)) (h : Json.Restores write read value) :
    item? read (write value).compactBytes = some (.ok value) := by
  obtain ⟨hdecode, hspace⟩ := exists_decode_compactBytes hplain
  rw [item?, hdecode]
  simp [hspace, show (Json.ofBytes? (write value).compactBytes).bind read = some value from h]

/-- What is read from a text that begins with some values are the values, and then what is read from
the rest. -/
lemma Holds.items (h : Holds write values text last) (hplain : ∀ value, Json.Plain (write value))
    (hvalues : ∀ value ∈ values, Json.Restores write read value) :
    items read text = values.map .ok ++ items read last := by
  induction h with
  | nil => rfl
  | blank hblank hbegins _ ih =>
    rw [items_of_begins hblank.not_mem_feed hbegins, hblank.item?, ih hvalues]
    rfl
  | @item value text rest last values hbegins _ ih =>
    obtain ⟨hvalue, hvalues⟩ := List.forall_mem_cons.1 hvalues
    have hfeed : 0x0a ∉ (write value).compactBytes := fun hmem =>
      absurd ((hplain value).printable _ hmem) (by decide)
    rw [items_of_begins hfeed hbegins, item?_compactBytes (hplain value) hvalue, ih hvalues]
    rfl

/-- What is read from lines that hold some values and nothing else are the values. -/
lemma Holds.items_eq (h : Holds write values text []) (hplain : ∀ value, Json.Plain (write value))
    (hvalues : ∀ value ∈ values, Json.Restores write read value) :
    Lines.items read text = values.map .ok :=
  (h.items hplain hvalues).trans (List.append_nil _)

/-- What is read from lines that hold some values and then a bad line are the values, an error and
what is read from the rest. -/
lemma Holds.items_bad (h : Holds write values text last)
    (hplain : ∀ value, Json.Plain (write value))
    (hvalues : ∀ value ∈ values, Json.Restores write read value) (hbegins : Begins line last rest)
    (hbad : Bad read line) :
    Lines.items read text = values.map .ok ++ .error .json :: Lines.items read rest := by
  rw [h.items hplain hvalues, items_of_begins hbad.feed hbegins, hbad.item?]
  rfl

end Lines

/-! ## Files -/

namespace Bridge

variable {info : NodeInfo} {outputs : List LedgerOutput} {events : List LedgerEvent}
  {nodeInfo snapshot log text line rest : Bytes}

/-- Three files tell of a node: one holds its information, perhaps with blanks around it, one its
unspent outputs and one its events, on a line each. -/
structure Tells (info : NodeInfo) (outputs : List LedgerOutput) (events : List LedgerEvent)
    (nodeInfo snapshot log : Bytes) : Prop where
  nodeInfo : ∃ before after, (∀ byte ∈ before, Json.isBlank byte = true) ∧
    (∀ byte ∈ after, Json.isBlank byte = true) ∧
    before ++ info.toJson.compactBytes ++ after = nodeInfo
  snapshot : Lines.Holds LedgerOutput.toJson outputs snapshot []
  events : Lines.Holds LedgerEvent.toJson events log []

lemma nodeInfo_ofFiles (h : (Json.ofBytes? nodeInfo).bind NodeInfo.ofJson? = some info)
    (snapshot log : FileSource) :
    (ofFiles (.content nodeInfo) snapshot log).nodeInfo = .ok info := by
  simp only [ofFiles, FileSource.read, bind, Except.bind, h]
  rfl

lemma unspentOutputs_ofFiles (nodeInfo log : FileSource) (snapshot : Bytes) :
    (ofFiles nodeInfo (.content snapshot) log).unspentOutputs =
      .ok (Lines.items LedgerOutput.ofJson? snapshot) := rfl

lemma ledgerUpdates_ofFiles (nodeInfo snapshot : FileSource) (log : Bytes) (start : Slot) :
    (ofFiles nodeInfo snapshot (.content log)).ledgerUpdates start =
      .ok ((Lines.items LedgerEvent.ofJson? log).filter (isDue start)) := rfl

lemma filter_isDue_map_ok (events : List LedgerEvent) (start : Slot) :
    (events.map .ok).filter (isDue start) =
      (events.filter fun event => start ≤ event.slot).map .ok := by
  rw [List.filter_map]
  rfl

/-- The events that a log holds are delivered from any slot on. -/
lemma ledgerUpdates_of_holds (hlog : Lines.Holds LedgerEvent.toJson events log [])
    (hevents : ∀ event ∈ events, Json.Restores LedgerEvent.toJson LedgerEvent.ofJson? event)
    (nodeInfo snapshot : FileSource) (start : Slot) :
    (ofFiles nodeInfo snapshot (.content log)).ledgerUpdates start =
      .ok ((events.filter fun event => start ≤ event.slot).map .ok) := by
  rw [ledgerUpdates_ofFiles, hlog.items_eq LedgerEvent.plain_toJson hevents, filter_isDue_map_ok]

/-- Files that tell of a node are as good as lists of all that is known of it. -/
lemma ofFiles_eq_ofLists (h : Tells info outputs events nodeInfo snapshot log)
    (houtputs : ∀ output ∈ outputs, Json.Restores LedgerOutput.toJson LedgerOutput.ofJson? output)
    (hevents : ∀ event ∈ events, Json.Restores LedgerEvent.toJson LedgerEvent.ofJson? event) :
    ofFiles (.content nodeInfo) (.content snapshot) (.content log) =
      ofLists info outputs events := by
  obtain ⟨before, after, hbefore, hafter, hfile⟩ := h.nodeInfo
  have hinfo : (Json.ofBytes? nodeInfo).bind NodeInfo.ofJson? = some info := by
    rw [← hfile, Json.ofBytes?_compactBytes info.plain_toJson hbefore hafter]
    exact NodeInfo.inverts_json.read_write info trivial
  refine (Bridge.mk.injEq ..).mpr ⟨?_, ?_, ?_⟩
  · exact nodeInfo_ofFiles hinfo (.content snapshot) (.content log)
  · exact congrArg Except.ok (h.snapshot.items_eq LedgerOutput.plain_toJson houtputs)
  · funext start
    exact ledgerUpdates_of_holds h.events hevents (.content nodeInfo) (.content snapshot) start

end Bridge

namespace Index

variable {index next last : Index} {info : NodeInfo} {outputs : List LedgerOutput}
  {events : List LedgerEvent} {snapshot log text line rest : Bytes}

/-- A follower that comes to an error in a stream has applied what stands before it. -/
lemma run_applyAll_append_error {first second : List (Except BridgeError LedgerEvent)}
    {count : ℕ} {cause : BridgeError} (hfirst : (applyAll first).run.run index = (.ok count, next))
    (hsecond : (applyAll second).run.run next = (.error cause, last)) :
    (applyAll (first ++ second)).run.run index = (.error cause, last) := by
  induction first generalizing index count with
  | nil =>
    cases hfirst
    exact hsecond
  | cons item rest ih =>
    cases item with
    | error cause => cases hfirst
    | ok event =>
      rw [List.cons_append, applyAll_ok_cons]
      rw [applyAll_ok_cons] at hfirst
      obtain ⟨applied, middle, happlied, hrest⟩ := run_bind_eq_ok_iff.1 hfirst
      obtain ⟨number, final, hnumber, hpure⟩ := run_bind_eq_ok_iff.1 hrest
      cases hpure
      rw [run_bind_of_ok happlied, run_bind_of_error (ih hnumber)]

lemma run_follow_singleton {bridge : Bridge} {start : Slot} {event : LedgerEvent}
    (hupdates : bridge.ledgerUpdates start = .ok [.ok event])
    (hsucceeds : index.succeeds event.operation = true) :
    (follow bridge start).run.run index = (.ok 1, index.after event.operation) := by
  rw [follow, hupdates, run_bind_of_ok (run_lift _ _), applyAll_ok_cons,
    run_bind_of_ok (run_applyUnlessStale_eq_ok_iff.2 (.inl ⟨rfl, hsucceeds, rfl⟩))]
  rfl

/-- A follower of a log comes to a bad line when it has applied the events before the line. -/
lemma run_follow_ofFiles_bad (hlog : Lines.Holds LedgerEvent.toJson events log text)
    (hevents : ∀ event ∈ events, Json.Restores LedgerEvent.toJson LedgerEvent.ofJson? event)
    (hbegins : Lines.Begins line text rest) (hbad : Lines.Bad LedgerEvent.ofJson? line)
    {start : Slot} {count : ℕ}
    (hrun : (follow (.ofLists info outputs events) start).run.run index = (.ok count, next))
    (nodeInfo snapshot : FileSource) :
    (follow (.ofFiles nodeInfo snapshot (.content log)) start).run.run index =
      (.error .json, next) := by
  have hfiles : (follow (.ofFiles nodeInfo snapshot (.content log)) start).run.run index =
      (applyAll ((events.filter fun event => start ≤ event.slot).map .ok ++
        .error .json :: (Lines.items LedgerEvent.ofJson? rest).filter
          (Bridge.isDue start))).run.run index := by
    rw [follow, Bridge.ledgerUpdates_ofFiles,
      hlog.items_bad LedgerEvent.plain_toJson hevents hbegins hbad, List.filter_append,
      Bridge.filter_isDue_map_ok]
    rfl
  have hlists : (follow (.ofLists info outputs events) start).run.run index =
      (applyAll ((events.filter fun event => start ≤ event.slot).map .ok)).run.run index := rfl
  rw [hlists] at hrun
  rw [hfiles]
  exact run_applyAll_append_error hrun rfl

/-- An import that succeeds has come to no error in the snapshot, so it does not get past a bad
line. -/
lemma run_importSnapshot_ofFiles_bad
    (hsnapshot : Lines.Holds LedgerOutput.toJson outputs snapshot text)
    (houtputs : ∀ output ∈ outputs, Json.Restores LedgerOutput.toJson LedgerOutput.ofJson? output)
    (hbegins : Lines.Begins line text rest) (hbad : Lines.Bad LedgerOutput.ofJson? line)
    (nodeInfo log : FileSource) (index : Index) :
    ∃ cause, (importSnapshot (.ofFiles nodeInfo (.content snapshot) log)).run.run index =
      (.error cause, index) := by
  rcases hrun : (importSnapshot (.ofFiles nodeInfo (.content snapshot) log)).run.run index with
    ⟨cause | status, next⟩
  · exact ⟨cause, by rw [eq_of_run_importSnapshot_error hrun]⟩
  · obtain ⟨node, loaded, state, himports, -⟩ := exists_imports_of_run hrun
    have hstream := himports.snapshot
    rw [Bridge.unspentOutputs_ofFiles] at hstream
    have hmem : .error .json ∈ Lines.items LedgerOutput.ofJson? snapshot := by
      rw [hsnapshot.items_bad LedgerOutput.plain_toJson houtputs hbegins hbad]
      exact List.mem_append_right _ List.mem_cons_self
    rw [Except.ok.inj hstream] at hmem
    obtain ⟨_, -, heq⟩ := List.mem_map.1 hmem
    cases heq

/-- **Files make the same of an index as the lists of what they hold.**  This is so of an import, of
a bootstrap and of a follower from any slot on.  A bad line among the events stops a follower when
it has applied what stands before the line, and a bad line among the outputs stops an import and
leaves the index as it is. -/
theorem ofFiles_agrees_with_ofLists (info : NodeInfo) (outputs : List LedgerOutput)
    (events : List LedgerEvent)
    (houtputs : ∀ output ∈ outputs, Json.Restores LedgerOutput.toJson LedgerOutput.ofJson? output)
    (hevents : ∀ event ∈ events, Json.Restores LedgerEvent.toJson LedgerEvent.ofJson? event) :
    let lists := Bridge.ofLists info outputs events
    (∀ nodeInfo snapshot log, Bridge.Tells info outputs events nodeInfo snapshot log →
      let files := Bridge.ofFiles (.content nodeInfo) (.content snapshot) (.content log)
      ∀ index, (importSnapshot files).run.run index = (importSnapshot lists).run.run index ∧
        (bootstrap files).run.run index = (bootstrap lists).run.run index ∧
        ∀ start, (follow files start).run.run index = (follow lists start).run.run index) ∧
    (∀ nodeInfo snapshot log text line rest, Lines.Holds LedgerEvent.toJson events log text →
      Lines.Begins line text rest → Lines.Bad LedgerEvent.ofJson? line →
      ∀ index start count next, (follow lists start).run.run index = (.ok count, next) →
        (follow (.ofFiles nodeInfo snapshot (.content log)) start).run.run index =
          (.error .json, next)) ∧
    ∀ nodeInfo snapshot log text line rest, Lines.Holds LedgerOutput.toJson outputs snapshot text →
      Lines.Begins line text rest → Lines.Bad LedgerOutput.ofJson? line →
      ∀ index, ∃ cause,
        (importSnapshot (.ofFiles nodeInfo (.content snapshot) log)).run.run index =
          (.error cause, index) := by
  intro lists
  refine ⟨fun nodeInfo snapshot log htells => ?_,
    fun nodeInfo snapshot log text line rest hlog hbegins hbad index start count next hrun => ?_,
    fun nodeInfo snapshot log text line rest hsnapshot hbegins hbad index => ?_⟩
  · intro files index
    have heq : files = lists := Bridge.ofFiles_eq_ofLists htells houtputs hevents
    rw [heq]
    exact ⟨rfl, rfl, fun _ => rfl⟩
  · exact run_follow_ofFiles_bad hlog hevents hbegins hbad hrun nodeInfo snapshot
  · exact run_importSnapshot_ofFiles_bad hsnapshot houtputs hbegins hbad nodeInfo log index

/-! ## A sample -/

/-- An output that is told of in two files. -/
def sampleTold : LedgerOutput := ⟨Json.sampleId, Json.sampleOutput, 6⟩

/-- The commit of the output. -/
def sampleCommit : LedgerEvent := .committed ⟨6, [], [sampleTold]⟩

lemma restores_sampleTold :
    Json.Restores LedgerOutput.toJson LedgerOutput.ofJson? sampleTold :=
  (LedgerOutput.inverts_json.restores_iff LedgerOutput.plain_toJson).2 Json.fits_sampleOutput

lemma restores_sampleCommit :
    Json.Restores LedgerEvent.toJson LedgerEvent.ofJson? sampleCommit :=
  (LedgerEvent.inverts_json.restores_iff LedgerEvent.plain_toJson).2
    ⟨nofun, List.forall_mem_singleton.2 Json.fits_sampleOutput⟩

/-- A line that is no document. -/
def sampleBadLine : Bytes := Utf8.encode "not json"

lemma bad_sampleBadLine {α : Type} (read : Json → Option α) : Lines.Bad read sampleBadLine where
  feed := by decide
  text := ⟨"not json", Utf8.decode_eq_ok_iff.2 rfl, by decide⟩
  unread := by
    have hnone : Json.ofBytes? sampleBadLine = none := by decide +kernel
    rw [hnone]
    rfl

/-- The output on a line that ends with a carriage return and a line feed, and then some lines. -/
def sampleSnapshot (rest : Bytes) : Bytes :=
  sampleTold.toJson.compactBytes ++ 0x0d :: 0x0a :: rest

/-- A line of blanks, the commit on a line that ends with a line feed, and then some lines. -/
def sampleLog (rest : Bytes) : Bytes :=
  Utf8.encode " \t" ++ 0x0a :: (sampleCommit.toJson.compactBytes ++ 0x0a :: rest)

lemma holds_sampleSnapshot (rest : Bytes) :
    Lines.Holds LedgerOutput.toJson [sampleTold] (sampleSnapshot rest) rest :=
  .item (.returnFeed rest) (.nil rest)

lemma holds_sampleLog (rest : Bytes) :
    Lines.Holds LedgerEvent.toJson [sampleCommit] (sampleLog rest) rest := by
  have hblank : Lines.Blank (Utf8.encode " \t") := ⟨_, rfl, by decide, by decide⟩
  have hlast : sampleCommit.toJson.compactBytes.getLast? ≠ some 0x0d := fun hmem =>
    absurd (sampleCommit.plain_toJson.printable _ (List.mem_of_mem_getLast? hmem)) (by decide)
  exact .blank hblank (.feed (by decide) _) (.item (.feed hlast rest) (.nil rest))

/-- A node of one output and one event is told of by files with blank lines and both ends of lines.
A bad line after the event is come to when the event is applied, and a bad line in the snapshot
leaves all as it is. -/
theorem ofFiles_agrees_sampleFiles :
    let nodeInfo := (Sample.nodeInfo 10).toJson.compactBytes ++ [0x0a]
    let files := Bridge.ofFiles (.content nodeInfo) (.content (sampleSnapshot (Utf8.encode " ")))
      (.content (sampleLog []))
    let broken := Bridge.ofFiles (.content nodeInfo) (.content (sampleSnapshot sampleBadLine))
      (.content (sampleLog sampleBadLine))
    let next := sampleIndex.after sampleCommit.operation
    (follow files 6).run.run sampleIndex = (.ok 1, next) ∧
      (follow broken 6).run.run sampleIndex = (.error .json, next) ∧
      (∃ status, ((importSnapshot files).run.run (.attach .empty .none)).1 = .ok status) ∧
      ∃ cause, (importSnapshot broken).run.run sampleIndex = (.error cause, sampleIndex) := by
  intro nodeInfo files broken next
  let lists := Bridge.ofLists (Sample.nodeInfo 10) [sampleTold] [sampleCommit]
  have htells : Bridge.Tells (Sample.nodeInfo 10) [sampleTold] [sampleCommit] nodeInfo
      (sampleSnapshot (Utf8.encode " ")) (sampleLog []) := {
    nodeInfo := ⟨[], [0x0a], nofun, List.forall_mem_singleton.2 rfl, rfl⟩
    snapshot := .item (.returnFeed _) (.blank ⟨_, rfl, by decide, by decide⟩ .last (.nil []))
    events := holds_sampleLog [] }
  obtain ⟨hagree, hbadEvent, hbadOutput⟩ := ofFiles_agrees_with_ofLists (Sample.nodeInfo 10)
    [sampleTold] [sampleCommit] (List.forall_mem_singleton.2 restores_sampleTold)
    (List.forall_mem_singleton.2 restores_sampleCommit)
  have hrun : (follow lists 6).run.run sampleIndex = (.ok 1, next) := by
    have hsucceeds : sampleIndex.succeeds sampleCommit.operation = true := by decide +kernel
    have hdue : [sampleCommit].filter (fun event => 6 ≤ event.slot) = [sampleCommit] := by
      simp [sampleCommit, LedgerEvent.slot, LedgerEvent.update]
    have hevents : lists.ledgerUpdates 6 = .ok [.ok sampleCommit] := by
      simp only [lists, Bridge.ofLists, hdue, List.map_singleton]
    exact run_follow_singleton hevents hsucceeds
  refine ⟨?_, ?_, ?_, ?_⟩
  · obtain ⟨-, -, hfollow⟩ := hagree _ _ _ htells sampleIndex
    exact (hfollow 6).trans hrun
  · exact hbadEvent _ _ _ _ _ _ (holds_sampleLog sampleBadLine) .last (bad_sampleBadLine _)
      sampleIndex 6 1 next hrun
  · obtain ⟨himport, -, -⟩ := hagree _ _ _ htells (.attach .empty .none)
    have hresult : ((importSnapshot lists).run.run (.attach .empty .none)).1 =
        .ok (Sample.status 10) := by decide +kernel
    exact ⟨Sample.status 10, by rw [himport]; exact hresult⟩
  · exact hbadOutput _ _ _ _ _ _ (holds_sampleSnapshot sampleBadLine) .last
      (bad_sampleBadLine _) sampleIndex

end Index

end OutputIndex
