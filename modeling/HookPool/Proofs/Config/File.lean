/-
# Sizes that a file gives

A file whose text is an object gives the default sizes with those of its members in their place.
Order, white space and other members make no difference (`Reads.eq_of_gives`); a member that names a
field again, or gives it by anything but a whole number below `2 ^ 64`, is an error.

| the members | what comes of it |
|---|---|
| `Proper` | each field that is named has its member's size, and the others the default |
| not `Proper` | an error with its place in the text |

The object that sizes are written as is one of these, so they come back from it.

Main statement: `ofFile_exact`.
-/
import HookPool.Config.File
import HookPool.Proofs.Config.Members

namespace HookPool

/-- A text is read back from its bytes. -/
theorem Text.decode?_toUTF8 (text : String) : Text.decode? text.toUTF8 = some text := by
  unfold Text.decode? String.fromUTF8?
  rw [String.toUTF8_eq_toByteArray, dif_pos text.isValidUTF8]
  rfl

namespace PoolConfig

open Json Config

variable {files : Files} {path text : String} {members : List Member} {config : PoolConfig}
  {field field' : Field}

/-- What comes of a file that holds an object with the given members. -/
structure Reads (members : List Member) (result : Except Error PoolConfig) : Prop where
  /-- A field has the size of the member that names it, or else the default. -/
  taken : Proper members → ∃ config, result = .ok config ∧ ∀ field : Field,
    (∀ m ∈ members, Names m field → IsSize m.value (field.of config)) ∧
      ((∀ m ∈ members, ¬Names m field) → field.of config = field.of default)
  /-- A field that is named twice, or whose value is no size, is an error. -/
  refused : ¬Proper members → ∃ place, result = .error (.config place)

/-- One of the members names the field and has the size for its value. -/
def Gives (members : List Member) (field : Field) (n : Nat) : Prop :=
  ∃ m ∈ members, Names m field ∧ IsSize m.value n

/-- **Only the sizes that members give count**, and not how or where they are given. -/
theorem Reads.eq_of_gives {members' : List Member} {result result' : Except Error PoolConfig}
    (h : Reads members result) (h' : Reads members' result') (hproper : Proper members)
    (hproper' : Proper members')
    (hsame : ∀ field n, Gives members field n ↔ Gives members' field n) : result = result' := by
  obtain ⟨config, rfl, hfields⟩ := h.taken hproper
  obtain ⟨config', rfl, hfields'⟩ := h'.taken hproper'
  refine congrArg Except.ok (ext_fields fun field => ?_)
  by_cases hnamed : ∃ m ∈ members, Names m field
  · obtain ⟨m, hm, hnames⟩ := hnamed
    obtain ⟨m', hm', hnames', hsize⟩ :=
      (hsame field _).1 ⟨m, hm, hnames, (hfields field).1 m hm hnames⟩
    exact hsize.unique ((hfields' field).1 m' hm' hnames')
  · have hnone : ∀ m ∈ members, ¬Names m field := fun m hm hnames => hnamed ⟨m, hm, hnames⟩
    have hnone' : ∀ m ∈ members', ¬Names m field := by
      intro m' hm' hnames'
      obtain ⟨n, hsize⟩ := hproper'.size m' hm' field hnames'
      obtain ⟨m, hm, hnames, -⟩ := (hsame field n).2 ⟨m', hm', hnames', hsize⟩
      exact hnone m hm hnames
    rw [(hfields field).2 hnone, (hfields' field).2 hnone']

theorem ofFile_of_text (hfile : files path = .ok text.toUTF8) :
    ofFile files path = (ofJson text).mapError .config := by
  simp only [ofFile, hfile, ofBytes, Text.decode?_toUTF8]

/-- **An object is read by its members.** -/
theorem reads_of_isObjectText (hfile : files path = .ok text.toUTF8)
    (h : IsObjectText members text.toList) : Reads members (ofFile files path) := by
  have hfree : Free members {} := fun _ _ field _ => field.get?_empty
  rw [ofFile_of_text hfile, ofJson]
  refine ⟨fun hproper => ?_, fun hnot => ?_⟩
  · obtain ⟨sizes, htakes⟩ := exists_takesAll_iff.2 ⟨hproper, hfree⟩
    rw [(sizesOfJson_eq_ok_iff h).2 htakes]
    refine ⟨_, rfl, fun field => ?_⟩
    obtain ⟨hnamed, hother⟩ := htakes.get?_eq field
    rw [field.of_override]
    refine ⟨fun m hm hnames => ?_, fun hnone => ?_⟩
    · obtain ⟨n, hsize, hn⟩ := hnamed m hm hnames
      rwa [hn]
    · rw [hother hnone, field.get?_empty]
      rfl
  · cases hread : sizesOfJson text.toList with
    | error failure => exact ⟨_, rfl⟩
    | ok sizes =>
      have htakes := (sizesOfJson_eq_ok_iff h).1 hread
      exact absurd (exists_takesAll_iff.1 ⟨_, htakes⟩).1 hnot

/-! ## The object that sizes are written as -/

/-- The member that a field is written as. -/
def writtenMember (config : PoolConfig) (field : Field) : Member where
  before := []
  key := field.name.toList
  beforeColon := []
  afterColon := []
  value := Nat.toDigits 10 (field.of config)
  after := []

/-- The members that sizes are written as. -/
def writtenMembers (config : PoolConfig) : List Member :=
  [.startCount, .maxActive, .maxIdle].map config.writtenMember

theorem writtenMember_mem (config : PoolConfig) (field : Field) :
    config.writtenMember field ∈ config.writtenMembers :=
  List.mem_map_of_mem (by cases field <;> decide)

theorem names_writtenMember : Names (config.writtenMember field) field' ↔ field' = field :=
  Names.iff_eq field.spells_name

theorem toList_toJson (config : PoolConfig) : config.toJson.toList =
    '\x7b' :: (separated (config.writtenMembers.map Member.chars) ++ ['\x7d']) := by
  unfold toJson
  simp [writtenMembers, writtenMember, separated, Member.chars, Member.fromKey, Field.name,
    Field.of]

/-- **Sizes are written as an object**, with one member for each field. -/
theorem isObjectText_toJson (hconfig : ∀ field : Field, field.of config < 2 ^ 64) :
    IsObjectText config.writtenMembers config.toJson.toList := by
  have hspaced : ∀ m ∈ config.writtenMembers, m.IsSpaced := by
    intro m hm
    obtain ⟨field, -, rfl⟩ := List.mem_map.1 hm
    exact ⟨nofun, field.spells_name.isStringBody, nofun, nofun, nofun⟩
  have hvalues : ∀ m ∈ config.writtenMembers, IsValue m.value := by
    intro m hm
    obtain ⟨field, -, rfl⟩ := List.mem_map.1 hm
    have hwhole := (isSize_toDigits (hconfig field)).whole
    exact .unsigned (by simpa [writtenMember] using IsUnsigned.mk hwhole .none .none)
  rw [toList_toJson]
  exact .members (nofun : IsSpace []) (by simp [writtenMembers]) hspaced hvalues nofun

theorem proper_writtenMembers (hconfig : ∀ field : Field, field.of config < 2 ^ 64) :
    Proper config.writtenMembers := by
  refine ⟨fun m hm => ?_, fun field => ?_, fun m hm field _ => ?_⟩
  · obtain ⟨field, -, rfl⟩ := List.mem_map.1 hm
    exact ⟨_, names_writtenMember.2 rfl⟩
  · simp only [writtenMembers, List.pairwise_map, names_writtenMember]
    cases field <;> decide
  · obtain ⟨field, -, rfl⟩ := List.mem_map.1 hm
    exact ⟨_, isSize_toDigits (hconfig field)⟩

/-- How a file is read whose text is an object. -/
structure IsRead (files : Files) (path text : String) : Prop where
  reads : ∀ members, IsObjectText members text.toList → Reads members (ofFile files path)
  /-- Neither order nor white space, nor the spelling of keys, nor other members count. -/
  indifferent : ∀ (path' text' : String) (members members' : List Member),
    files path' = .ok text'.toUTF8 → IsObjectText members text.toList →
      IsObjectText members' text'.toList → Proper members → Proper members' →
        (∀ field n, Gives members field n ↔ Gives members' field n) →
          ofFile files path = ofFile files path'
  /-- Sizes come back from the object that they are written as. -/
  written : ∀ config : PoolConfig, (∀ field : Field, field.of config < 2 ^ 64) →
    text = config.toJson → ofFile files path = .ok config

/-- **A file that holds an object is read by the sizes that its members give.** -/
theorem ofFile_exact (files : Files) (path text : String) (hfile : files path = .ok text.toUTF8) :
    IsRead files path text := by
  refine ⟨fun members h => reads_of_isObjectText hfile h, ?_, ?_⟩
  · intro path' text' members members' hfile' h h' hproper hproper' hsame
    have hreads := reads_of_isObjectText hfile h
    exact hreads.eq_of_gives (reads_of_isObjectText hfile' h') hproper hproper' hsame
  · rintro config hconfig rfl
    have hreads := reads_of_isObjectText hfile (isObjectText_toJson hconfig)
    obtain ⟨config', hread, hfields⟩ := hreads.taken (proper_writtenMembers hconfig)
    have hsame (field : Field) : field.of config' = field.of config :=
      ((hfields field).1 _ (writtenMember_mem config field) (names_writtenMember.2 rfl)).unique
        (isSize_toDigits (hconfig field))
    rw [hread, ext_fields hsame]

/-- A note beside a size changes nothing, and sizes at the limits come back. -/
theorem ofFile_exact_note_and_limits :
    ofFile (fun _ => .ok "\x7b \"note\":[null],\"max_active\" : 12\x7d".toUTF8) "pool.json" =
        .ok ⟨1, 12, 4⟩ ∧
      ofFile (fun _ => .ok (toJson ⟨0, 2 ^ 64 - 1, 7⟩).toUTF8) "pool.json" =
        .ok ⟨0, 2 ^ 64 - 1, 7⟩ := by
  constructor
  · let note : Member := ⟨[' '], ['n', 'o', 't', 'e'], [], [], ['[', 'n', 'u', 'l', 'l', ']'], []⟩
    let size : Member := ⟨[], Field.maxActive.name.toList, [' '], [' '], Nat.toDigits 10 12, []⟩
    have hnote : Spells note.key note.key := spells_self (by decide)
    have hother (field : Field) : ¬Names note field := by
      rw [names_iff hnote]
      cases field <;> decide
    have hnames : Names size .maxActive := Field.maxActive.spells_name
    have hsize : IsSize size.value 12 := isSize_toDigits (n := 12) (by decide)
    have hobject : IsObjectText [note, size]
        "\x7b \"note\":[null],\"max_active\" : 12\x7d".toList := by
      have hspaced : ∀ m ∈ [note, size], m.IsSpaced := by
        simp only [List.forall_mem_cons]
        exact ⟨⟨by decide, hnote.isStringBody, by decide, by decide, by decide⟩,
          ⟨by decide, hnames.isStringBody, by decide, by decide, by decide⟩, nofun⟩
      have hnull : IsValue note.value :=
        @IsValue.list [⟨[], ['n', 'u', 'l', 'l'], []⟩] (by simp)
          (by simpa using ⟨by decide, by decide⟩) (by simpa using .word (by decide))
      have hvalues : ∀ m ∈ [note, size], IsValue m.value := by
        simp only [List.forall_mem_cons]
        exact ⟨hnull, .unsigned (.mk hsize.whole .none .none), nofun⟩
      exact .members (by decide : IsSpace []) (by simp) hspaced hvalues (by decide : IsSpace [])
    have hproper : Proper [note, size] := by
      refine ⟨by simpa using ⟨⟨_, hnote⟩, ⟨_, hnames⟩⟩, fun field => ?_, ?_⟩
      · simp [hother]
      · simp only [List.forall_mem_cons]
        exact ⟨fun field h => absurd h (hother field), fun _ _ => ⟨12, hsize⟩, nofun⟩
    have hexact := ofFile_exact
      (fun _ => .ok "\x7b \"note\":[null],\"max_active\" : 12\x7d".toUTF8) "pool.json" _ rfl
    obtain ⟨config, hread, hfields⟩ := (hexact.reads _ hobject).taken hproper
    rw [hread]
    congr 1
    refine ext_fields fun field => ?_
    obtain ⟨hgiven, hdefault⟩ := hfields field
    cases field with
    | maxActive => exact (hgiven size (by simp) hnames).unique hsize
    | startCount => exact hdefault (by simp [hother, hnames.iff_eq])
    | maxIdle => exact hdefault (by simp [hother, hnames.iff_eq])
  · have hlimits (field : Field) : field.of ⟨0, 2 ^ 64 - 1, 7⟩ < 2 ^ 64 := by
      cases field <;> decide
    exact (ofFile_exact _ "pool.json" _ rfl).written _ hlimits rfl

end PoolConfig
end HookPool
