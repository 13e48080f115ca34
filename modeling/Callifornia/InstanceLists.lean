import Callifornia.Connector.Session
import Callifornia.Text.Fields
import Callifornia.Text.Lines

/-! # Lists of instances in the configuration

The connector, and the supervisor twice, read lists of instances from their configuration. The
three parsers differ in what they trim: the connector trims nothing, the supervisor trims ids
and addresses but no numbers, and finds out too late that nothing is left of an id.
-/

namespace Callifornia.InstanceLists

open Text

/-! ## The parsers -/

def trim (text : Chars) : Chars := trimBy Connector.isWhitespace text

/-- A missing value is an error. -/
def context {α : Type} (found : Option α) (message : String) : Except String α :=
  found.elim (.error message) .ok

structure SignalingInstance where
  id : Chars
  wsUrl : Chars
  deriving DecidableEq

def parseSignalingEntry (entry : Chars) : Except String SignalingInstance := do
  let parts ← context (splitOnce '|' entry) "SIGNALING_INSTANCES entries must be id|ws_url"
  return { id := parts.1, wsUrl := parts.2 }

/-- The connector's list. -/
def parseSignalingInstances (value : Chars) : Except String (List SignalingInstance) :=
  (listed Connector.isWhitespace ',' value).mapM parseSignalingEntry

structure SignalingAdminInstance where
  nodeId : Chars
  grpcAddr : Chars
  deriving DecidableEq

def parseSignalingAdminEntry (entry : Chars) : Except String SignalingAdminInstance := do
  let parts ← context (splitOnce '|' entry)
    "SIGNALING_ADMIN_INSTANCES must be node_id|grpc_addr pairs"
  return { nodeId := trim parts.1, grpcAddr := trim parts.2 }

/-- The supervisor's list of the same nodes. -/
def parseSignalingAdminInstances (value : Chars) : Except String (List SignalingAdminInstance) :=
  if trim value = [] then .ok []
  else (listed Connector.isWhitespace ',' value).mapM parseSignalingAdminEntry

structure SfuInventoryInstance where
  instanceId : Chars
  grpcAddr : Chars
  maxRooms : UInt32
  deriving DecidableEq

/-- Parse a decimal number of at most 32 bits, with an optional leading plus. -/
def parseU32 (text : Chars) : Option UInt32 := (parseNat (2 ^ 32) text).map UInt32.ofNat

def parseSfuEntry (entry : Chars) : Except String SfuInventoryInstance := do
  let parts := entry.splitOn '|'
  let instanceId ← context (parts[0]?.filter (· ≠ []))
    "SUPERVISOR_SFU_INSTANCES entry requires instance_id"
  let grpcAddr ← context (parts[1]?.filter (· ≠ []))
    "SUPERVISOR_SFU_INSTANCES entry requires grpc_addr"
  let rooms ← context parts[2]? "SUPERVISOR_SFU_INSTANCES entry requires max_rooms"
  let maxRooms ← context (parseU32 rooms) "SUPERVISOR_SFU_INSTANCES max_rooms must be integer"
  return { instanceId := trim instanceId, grpcAddr := trim grpcAddr, maxRooms }

def parseSfuInstances (value : Chars) : Except String (List SfuInventoryInstance) :=
  if trim value = [] then .ok []
  else (listed Connector.isWhitespace ';' value).mapM parseSfuEntry

/-! ## What is written -/

/-- A text with spaces around it. -/
def pad (left right : ℕ) (text : Chars) : Chars :=
  List.replicate left ' ' ++ text ++ List.replicate right ' '

/-- A field and the spaces that are written around it; those around an entry are around its
first and its last field. -/
structure Field (separators : Chars) where
  text : Chars
  left : ℕ
  right : ℕ
  nonempty : text ≠ []
  plain : ∀ separator ∈ separators, separator ∉ text
  tight : trim text = text

namespace Field

variable {separators : Chars}

def render (field : Field separators) : Chars := pad field.left field.right field.text

/-- Nothing is written around the field. -/
def Bare (field : Field separators) : Prop := field.left = 0 ∧ field.right = 0

end Field

/-- An entry of a list of signaling nodes. -/
structure NodeEntry where
  id : Field [',', '|']
  address : Field [',', '|']

def NodeEntry.render (entry : NodeEntry) : Chars := entry.id.render ++ '|' :: entry.address.render

structure SfuEntry where
  instanceId : Field [';', '|']
  grpcAddr : Field [';', '|']
  maxRooms : UInt32
  left : ℕ
  right : ℕ

def SfuEntry.render (entry : SfuEntry) : Chars :=
  entry.instanceId.render ++ '|' :: (entry.grpcAddr.render ++
    '|' :: pad entry.left entry.right (Nat.toDigits 10 entry.maxRooms.toNat))

def renderNodes (entries : List NodeEntry) : Chars :=
  [','].intercalate (entries.map NodeEntry.render)

def renderSfus (entries : List SfuEntry) : Chars :=
  [';'].intercalate (entries.map SfuEntry.render)

/-! ## Fields -/

section Fields

variable {separators : Chars} {separator : Char} {left right : ℕ} {text : Chars}

/-- Blanks around a text do not add a separator. -/
theorem notMem_pad (other : separator ≠ ' ') (free : separator ∉ text) :
    separator ∉ pad left right text := by
  simp [pad, List.mem_replicate, other, free]

/-- A text without blanks around it. -/
theorem pad_eq_self : pad left right text = text ↔ left = 0 ∧ right = 0 := by
  constructor
  · intro same
    have length := congrArg List.length same
    simp only [pad, List.length_append, List.length_replicate] at length
    omega
  · rintro ⟨rfl, rfl⟩
    simp [pad]

/-- The blanks are whitespace. -/
theorem blank_replicate {count : ℕ} {char : Char} (member : char ∈ List.replicate count ' ') :
    Connector.isWhitespace char = true := by
  rw [List.eq_of_mem_replicate member]
  decide

variable (field : Field separators)

/-- Trimming a field gives its text. -/
theorem Field.trim_render : trim field.render = field.text :=
  trimBy_pad field.tight (fun _ => blank_replicate) fun _ => blank_replicate

/-- A field has no separator. -/
theorem Field.notMem_render (member : separator ∈ separators) (other : separator ≠ ' ') :
    separator ∉ field.render :=
  notMem_pad other (field.plain separator member)

/-- A field is not empty. -/
theorem Field.render_ne_nil : field.render ≠ [] := by
  intro empty
  have trimmed := field.trim_render
  rw [empty] at trimmed
  exact field.nonempty trimmed.symm

/-- A field without blanks is its text. -/
theorem Field.render_eq_text : field.render = field.text ↔ field.Bare := pad_eq_self

end Fields

/-! ## Entries -/

section Entries

/-- A text with a bar in it is not empty when it has been trimmed. -/
theorem trim_ne_nil {text : Chars} (bar : '|' ∈ text) : trim text ≠ [] := fun empty =>
  Bool.false_ne_true (trimBy_eq_nil.mp empty '|' bar)

/-- The entries of a list of nodes are found by the commas. -/
theorem NodeEntry.listed_renderNodes (entries : List NodeEntry) :
    listed Connector.isWhitespace ',' (renderNodes entries) = entries.map NodeEntry.render := by
  refine listed_intercalate ?_ ?_
  · refine List.forall_mem_map.mpr fun entry _ => ?_
    have id := entry.id.notMem_render (.head _) (by decide : ',' ≠ ' ')
    have address := entry.address.notMem_render (.head _) (by decide : ',' ≠ ' ')
    simp [render, id, address]
  · exact List.forall_mem_map.mpr fun entry _ =>
      trim_ne_nil (List.mem_append_right _ (.head _))

/-- No separator is in a number or in the spaces around it. -/
theorem SfuEntry.notMem_rooms (entry : SfuEntry) {separator : Char} (other : separator ≠ ' ')
    (noDigit : separator.isDigit = false) :
    separator ∉ pad entry.left entry.right (Nat.toDigits 10 entry.maxRooms.toNat) := by
  refine notMem_pad other fun member => ?_
  have digit : separator.isDigit = true :=
    Nat.isDigit_of_mem_toDigits (by decide) (by decide) member
  exact Bool.false_ne_true (noDigit.symm.trans digit)

/-- The entries of a list of SFUs are found by the semicolons. -/
theorem SfuEntry.listed_renderSfus (entries : List SfuEntry) :
    listed Connector.isWhitespace ';' (renderSfus entries) = entries.map SfuEntry.render := by
  refine listed_intercalate ?_ ?_
  · refine List.forall_mem_map.mpr fun entry _ => ?_
    have id := entry.instanceId.notMem_render (.head _) (by decide : ';' ≠ ' ')
    have address := entry.grpcAddr.notMem_render (.head _) (by decide : ';' ≠ ' ')
    have rooms := entry.notMem_rooms (by decide : ';' ≠ ' ') (by decide)
    simp [render, id, address, rooms]
  · exact List.forall_mem_map.mpr fun entry _ =>
      trim_ne_nil (List.mem_append_right _ (.head _))

/-- The connector keeps the spaces. -/
theorem parseSignalingEntry_render (entry : NodeEntry) :
    parseSignalingEntry entry.render = .ok ⟨entry.id.render, entry.address.render⟩ := by
  have free := entry.id.notMem_render (.tail _ (.head _)) (by decide : '|' ≠ ' ')
  rw [parseSignalingEntry, NodeEntry.render, splitOnce_append free]
  rfl

/-- The admin parser trims the fields of an entry. -/
theorem parseSignalingAdminEntry_render (entry : NodeEntry) :
    parseSignalingAdminEntry entry.render = .ok ⟨entry.id.text, entry.address.text⟩ := by
  have free := entry.id.notMem_render (.tail _ (.head _)) (by decide : '|' ≠ ' ')
  rw [parseSignalingAdminEntry, NodeEntry.render, splitOnce_append free,
    ← entry.id.trim_render, ← entry.address.trim_render]
  rfl

/-- A number with spaces around it is none. -/
theorem parseU32_pad {left right : ℕ} (value : UInt32) :
    parseU32 (pad left right (Nat.toDigits 10 value.toNat)) =
      if left = 0 ∧ right = 0 then some value else none := by
  split
  · rename_i bare
    rw [pad_eq_self.mpr bare, parseU32, parseNat_toDigits value.toNat_lt]
    exact congrArg some UInt32.ofNat_toNat
  · rename_i padded
    have space : ' ' ∈ pad left right (Nat.toDigits 10 value.toNat) := by
      simp only [pad, List.mem_append, List.mem_replicate, and_true]
      omega
    rw [parseU32, parseNat_eq_none space (by decide) (by decide)]
    rfl

/-- A field that is missing is an error. -/
theorem context_bind_eq_ok {α β : Type} {found : Option α} {message : String}
    {rest : α → Except String β} {value : β} :
    (context found message >>= rest) = .ok value ↔ ∃ item ∈ found, rest item = .ok value := by
  cases found with
  | none =>
      constructor
      · intro read
        cases read
      · rintro ⟨item, absent, -⟩
        cases absent
  | some item =>
      constructor
      · exact fun read => ⟨item, rfl, read⟩
      · rintro ⟨other, same, read⟩
        exact Option.some.inj same ▸ read

/-- An entry that is accepted, with the fields as they are written. -/
structure Accepted (entry instanceId grpcAddr : Chars) (maxRooms : UInt32) : Prop where
  id : (entry.splitOn '|')[0]? = some instanceId
  named : instanceId ≠ []
  address : (entry.splitOn '|')[1]? = some grpcAddr
  reached : grpcAddr ≠ []
  rooms : (entry.splitOn '|')[2]?.bind parseU32 = some maxRooms

/-- What becomes of an accepted entry. -/
theorem parseSfuEntry_eq_ok {entry : Chars} {record : SfuInventoryInstance} :
    parseSfuEntry entry = .ok record ↔ ∃ instanceId grpcAddr maxRooms,
      Accepted entry instanceId grpcAddr maxRooms ∧
        record = ⟨trim instanceId, trim grpcAddr, maxRooms⟩ := by
  unfold parseSfuEntry
  simp only [context_bind_eq_ok, Option.mem_def, Option.filter_eq_some_iff, decide_eq_true_eq]
  constructor
  · rintro ⟨instanceId, ⟨id, named⟩, grpcAddr, ⟨address, reached⟩, rooms, third, maxRooms, read,
      same⟩
    refine ⟨instanceId, grpcAddr, maxRooms, ⟨id, named, address, reached, ?_⟩, ?_⟩
    · rw [third, Option.bind_some, read]
    · exact (Except.ok.inj same).symm
  · rintro ⟨instanceId, grpcAddr, maxRooms, accepted, rfl⟩
    obtain ⟨rooms, third, read⟩ := Option.bind_eq_some_iff.mp accepted.rooms
    exact ⟨instanceId, ⟨accepted.id, accepted.named⟩, grpcAddr,
      ⟨accepted.address, accepted.reached⟩, rooms, third, maxRooms, read, rfl⟩

/-- The SFU parser does not trim the last field of an entry. -/
theorem parseSfuEntry_render (entry : SfuEntry) :
    parseSfuEntry entry.render =
        .ok ⟨entry.instanceId.text, entry.grpcAddr.text, entry.maxRooms⟩ ↔
      entry.left = 0 ∧ entry.right = 0 := by
  have id := entry.instanceId.notMem_render (.tail _ (.head _)) (by decide : '|' ≠ ' ')
  have address := entry.grpcAddr.notMem_render (.tail _ (.head _)) (by decide : '|' ≠ ' ')
  have rooms := entry.notMem_rooms (by decide : '|' ≠ ' ') (by decide)
  have parts : entry.render.splitOn '|' = [entry.instanceId.render, entry.grpcAddr.render,
      pad entry.left entry.right (Nat.toDigits 10 entry.maxRooms.toNat)] := by
    rw [SfuEntry.render, List.splitOn_append_cons_self_of_not_mem id,
      List.splitOn_append_cons_self_of_not_mem address, List.splitOn_eq_singleton rooms]
  rw [parseSfuEntry_eq_ok]
  constructor
  · rintro ⟨instanceId, grpcAddr, maxRooms, accepted, -⟩
    have read := accepted.rooms
    rw [parts, List.getElem?_cons_succ, List.getElem?_cons_succ, List.getElem?_cons_zero,
      Option.bind_some, parseU32_pad] at read
    by_contra padded
    rw [if_neg padded] at read
    cases read
  · intro bare
    refine ⟨entry.instanceId.render, entry.grpcAddr.render, entry.maxRooms,
      ⟨by rw [parts]; rfl, entry.instanceId.render_ne_nil, by rw [parts]; rfl,
        entry.grpcAddr.render_ne_nil, ?_⟩, ?_⟩
    · rw [parts, List.getElem?_cons_succ, List.getElem?_cons_succ, List.getElem?_cons_zero,
        Option.bind_some, parseU32_pad, if_pos bare]
    · rw [entry.instanceId.trim_render, entry.grpcAddr.trim_render]

end Entries

/-! ## Lists -/

section Read

/-- A rendered list is read back if each of its entries is. -/
theorem mapM_render {Entry Record : Type} {render : Entry → Chars}
    {parse : Chars → Except String Record} {meant : Entry → Record} {entries : List Entry} :
    (entries.map render).mapM parse = .ok (entries.map meant) ↔
      ∀ entry ∈ entries, parse (render entry) = .ok (meant entry) := by
  rw [mapM_eq_ok, List.map_map, List.map_map, List.map_inj_left]
  rfl

/-- The admin parser reads entry by entry. -/
theorem parseSignalingAdminInstances_eq (value : Chars) : parseSignalingAdminInstances value =
    (listed Connector.isWhitespace ',' value).mapM parseSignalingAdminEntry := by
  unfold parseSignalingAdminInstances
  split
  · rw [listed_eq_nil (by decide) ‹_›]
    rfl
  · rfl

/-- The SFU parser reads entry by entry. -/
theorem parseSfuInstances_eq (value : Chars) : parseSfuInstances value =
    (listed Connector.isWhitespace ';' value).mapM parseSfuEntry := by
  unfold parseSfuInstances
  split
  · rw [listed_eq_nil (by decide) ‹_›]
    rfl
  · rfl

/-- The connector reads a list with all the spaces in it. -/
theorem parseSignalingInstances_render (entries : List NodeEntry) :
    parseSignalingInstances (renderNodes entries) =
      .ok (entries.map fun entry => ⟨entry.id.render, entry.address.render⟩) := by
  rw [parseSignalingInstances, NodeEntry.listed_renderNodes, mapM_render]
  exact fun entry _ => parseSignalingEntry_render entry

/-- The supervisor reads a list of nodes as it is meant. -/
theorem parseSignalingAdminInstances_render (entries : List NodeEntry) :
    parseSignalingAdminInstances (renderNodes entries) =
      .ok (entries.map fun entry => ⟨entry.id.text, entry.address.text⟩) := by
  rw [parseSignalingAdminInstances_eq, NodeEntry.listed_renderNodes, mapM_render]
  exact fun entry _ => parseSignalingAdminEntry_render entry

/-- The node parser does not trim, so it reads back exactly the lists of bare fields. -/
theorem signalingInstances_iff (entries : List NodeEntry) :
    parseSignalingInstances (renderNodes entries) =
        .ok (entries.map fun entry => ⟨entry.id.text, entry.address.text⟩) ↔
      ∀ entry ∈ entries, entry.id.Bare ∧ entry.address.Bare := by
  rw [parseSignalingInstances_render, Except.ok.injEq, List.map_inj_left]
  refine forall₂_congr fun entry _ => ?_
  rw [SignalingInstance.mk.injEq, Field.render_eq_text, Field.render_eq_text]

/-- The SFU parser reads back exactly the lists whose capacities have no blanks around them. -/
theorem sfuInstances_iff (entries : List SfuEntry) :
    parseSfuInstances (renderSfus entries) = .ok (entries.map fun entry =>
        ⟨entry.instanceId.text, entry.grpcAddr.text, entry.maxRooms⟩) ↔
      ∀ entry ∈ entries, entry.left = 0 ∧ entry.right = 0 := by
  rw [parseSfuInstances_eq, SfuEntry.listed_renderSfus, mapM_render]
  exact forall₂_congr fun entry _ => parseSfuEntry_render entry

/-- Both services have the same ids for the same nodes. -/
def SameIds (nodes admins : List NodeEntry) : Prop :=
  List.map SignalingInstance.id <$> parseSignalingInstances (renderNodes nodes) =
    List.map SignalingAdminInstance.nodeId <$> parseSignalingAdminInstances (renderNodes admins)

/-- The two lists have the same ids exactly if the nodes' ids are bare. -/
theorem sameIds_iff {nodes admins : List NodeEntry}
    (same : admins.map (·.id.text) = nodes.map (·.id.text)) :
    SameIds nodes admins ↔ ∀ entry ∈ nodes, entry.id.Bare := by
  rw [SameIds, parseSignalingInstances_render, parseSignalingAdminInstances_render, Except.map_ok,
    Except.map_ok, Except.ok.injEq, List.map_map, List.map_map]
  refine (Eq.congr_right same).trans (List.map_inj_left.trans ?_)
  exact forall₂_congr fun entry _ => Field.render_eq_text entry.id

/-- No instance without an id or an address is returned. -/
def NoneEmpty (value : Chars) : Prop :=
  ∀ records, parseSfuInstances value = .ok records →
    ∀ record ∈ records, record.instanceId ≠ [] ∧ record.grpcAddr ≠ []

/-- One entry is refused, or no id and no address consists of white space. -/
def RefusedOrFull (value : Chars) : Prop :=
  (∃ entry ∈ listed Connector.isWhitespace ';' value,
    ∀ instanceId grpcAddr maxRooms, ¬ Accepted entry instanceId grpcAddr maxRooms) ∨
  ∀ entry ∈ listed Connector.isWhitespace ';' value, ∀ instanceId grpcAddr maxRooms,
    Accepted entry instanceId grpcAddr maxRooms →
      (∃ char ∈ instanceId, Connector.isWhitespace char = false) ∧
      ∃ char ∈ grpcAddr, Connector.isWhitespace char = false

/-- A trimmed text is empty exactly if all of it was whitespace. -/
theorem trim_ne_nil_iff {text : Chars} :
    trim text ≠ [] ↔ ∃ char ∈ text, Connector.isWhitespace char = false := by
  rw [trim, ne_eq, trimBy_eq_nil]
  push Not
  simp only [ne_eq, Bool.not_eq_true]

/-- No instance without an id or an address is returned, exactly if an entry is refused or all
have both. -/
theorem noneEmpty_iff (value : Chars) : NoneEmpty value ↔ RefusedOrFull value := by
  unfold NoneEmpty
  rw [parseSfuInstances_eq]
  constructor
  · intro nonempty
    by_cases all : ∀ entry ∈ listed Connector.isWhitespace ';' value,
        ∃ record, parseSfuEntry entry = .ok record
    · obtain ⟨records, read⟩ := exists_mapM_eq_ok.mpr all
      refine .inr fun entry member instanceId grpcAddr maxRooms accepted => ?_
      obtain ⟨id, address⟩ := nonempty records read _ ((mem_mapM read).mpr
        ⟨entry, member, parseSfuEntry_eq_ok.mpr ⟨_, _, _, accepted, rfl⟩⟩)
      exact ⟨trim_ne_nil_iff.mp id, trim_ne_nil_iff.mp address⟩
    · push Not at all
      obtain ⟨entry, member, refused⟩ := all
      exact .inl ⟨entry, member, fun instanceId grpcAddr maxRooms accepted =>
        refused _ (parseSfuEntry_eq_ok.mpr ⟨_, _, _, accepted, rfl⟩)⟩
  · intro condition records read record returned
    obtain ⟨entry, member, parsed⟩ := (mem_mapM read).mp returned
    obtain ⟨instanceId, grpcAddr, maxRooms, accepted, rfl⟩ := parseSfuEntry_eq_ok.mp parsed
    rcases condition with ⟨other, member, refused⟩ | full
    · obtain ⟨record, parsed⟩ := exists_mapM_eq_ok.mp ⟨records, read⟩ other member
      obtain ⟨_, _, _, accepted, -⟩ := parseSfuEntry_eq_ok.mp parsed
      exact absurd accepted (refused _ _ _)
    · obtain ⟨id, address⟩ := full entry member _ _ _ accepted
      exact ⟨trim_ne_nil_iff.mpr id, trim_ne_nil_iff.mpr address⟩

/-- **How the lists are read**: the connector's as it is meant if nothing is written around a
field, the supervisor's list of nodes always, its list of SFUs if nothing is written around a
number. -/
theorem lists_read (nodes admins : List NodeEntry) (sfus : List SfuEntry) (value : Chars) :
    (parseSignalingInstances (renderNodes nodes) =
        .ok (nodes.map fun entry => ⟨entry.id.text, entry.address.text⟩) ↔
      ∀ entry ∈ nodes, entry.id.Bare ∧ entry.address.Bare) ∧
    parseSignalingAdminInstances (renderNodes admins) =
      .ok (admins.map fun entry => ⟨entry.id.text, entry.address.text⟩) ∧
    (parseSfuInstances (renderSfus sfus) = .ok (sfus.map fun entry =>
        ⟨entry.instanceId.text, entry.grpcAddr.text, entry.maxRooms⟩) ↔
      ∀ entry ∈ sfus, entry.left = 0 ∧ entry.right = 0) ∧
    (admins.map (·.id.text) = nodes.map (·.id.text) →
      (SameIds nodes admins ↔ ∀ entry ∈ nodes, entry.id.Bare)) ∧
    (NoneEmpty value ↔ RefusedOrFull value) :=
  ⟨signalingInstances_iff nodes, parseSignalingAdminInstances_render admins,
    sfuInstances_iff sfus, sameIds_iff, noneEmpty_iff value⟩

/-- Spaces after the separators: the connector keeps one in an id, the supervisor refuses one
before a number, and returns an instance without an id. -/
theorem lists_misread :
    parseSignalingInstances "a:1|ws://a, b:2|ws://b".toList =
      .ok [⟨"a:1".toList, "ws://a".toList⟩, ⟨" b:2".toList, "ws://b".toList⟩] ∧
    parseSignalingAdminInstances "a:1|http://a, b:2|http://b".toList =
      .ok [⟨"a:1".toList, "http://a".toList⟩, ⟨"b:2".toList, "http://b".toList⟩] ∧
    parseSfuInstances "sfu-1|http://a| 5".toList =
      .error "SUPERVISOR_SFU_INSTANCES max_rooms must be integer" ∧
    parseSfuInstances " |http://a|5".toList = .ok [⟨[], "http://a".toList, 5⟩] := by
  refine ⟨?_, ?_, ?_, ?_⟩ <;> decide +kernel

end Read

end Callifornia.InstanceLists
