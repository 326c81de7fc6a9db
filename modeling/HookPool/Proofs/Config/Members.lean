/-
# Members that give sizes

An object gives sizes through the members whose keys spell the name of a field.  A key may be
written with escapes, so what counts is the text that it spells (`Names`).

`Takes` is what one member does to the sizes that the members before it have given: one whose key
spells another text does nothing, and one that names a field gives its size, unless the field has
one already or the value is none.  `readMembers` takes the members one by one
(`readMembers_separated`), and so comes to an end exactly if every key spells a text, no two members
name the same field, and each that names one gives a size (`exists_takesAll_iff`).

Main statement: `sizesOfJson_eq_ok_iff`.
-/
import HookPool.Proofs.Config.Fields
import HookPool.Proofs.Json.Value
import HookPool.Proofs.Results

namespace HookPool
namespace Config

open Json

/-- The member's key spells the name of the field. -/
def Names (m : Member) (field : Field) : Prop := Spells m.key field.name.toList

/-- What a member does to the sizes that have been given before it. -/
inductive Takes (m : Member) (sizes : Sizes) : Sizes → Prop where
  | other {key : List Char} (hkey : Spells m.key key) (hother : ∀ field, ¬Names m field) :
    Takes m sizes sizes
  | size {field : Field} {n : Nat} (hnames : Names m field) (hnew : field.get? sizes = none)
    (hsize : IsSize m.value n) : Takes m sizes (field.set n sizes)

/-- What members do one after the other. -/
inductive TakesAll : List Member → Sizes → Sizes → Prop where
  | nil {sizes : Sizes} : TakesAll [] sizes sizes
  | cons {m : Member} {members : List Member} {sizes sizes₁ sizes' : Sizes}
    (h : Takes m sizes sizes₁) (hrest : TakesAll members sizes₁ sizes') :
    TakesAll (m :: members) sizes sizes'

/-- Members that give sizes: a field is given once at the most, and by a size. -/
structure Proper (members : List Member) : Prop where
  spelled : ∀ m ∈ members, ∃ key, Spells m.key key
  once : ∀ field, members.Pairwise fun m m' => Names m field → ¬Names m' field
  size : ∀ m ∈ members, ∀ field, Names m field → ∃ n, IsSize m.value n

variable {m : Member} {members : List Member} {field field' : Field} {sizes sizes' : Sizes}
  {cs rest rest' tail key : List Char} {c : Char}

/-! ## Keys -/

theorem Field.ofName?_eq_some_iff {key : String} :
    Field.ofName? key = some field ↔ field.name = key := by
  constructor
  · intro h
    simpa using List.find?_some h
  · rintro rfl
    cases field <;> rfl

theorem Field.ofName?_eq_none_iff {key : String} :
    Field.ofName? key = none ↔ ∀ field : Field, field.name ≠ key := by
  simp only [Option.eq_none_iff_forall_ne_some, ne_eq, Field.ofName?_eq_some_iff]

/-- What stands between two quotes spells one text. -/
theorem spells_unique {body text text' : List Char} (h : Spells body text)
    (h' : Spells body text') : text = text' := by
  have hread {text : List Char} (h : Spells body text) :
      readString [] (body ++ ['"']) = .ok (text, []) :=
    readString_eq_ok_iff.2 ⟨body, text, h, rfl, rfl⟩
  exact congrArg Prod.fst (Except.ok.inj ((hread h).symm.trans (hread h')))

/-- A name needs no escapes. -/
theorem Field.spells_name (field : Field) : Spells field.name.toList field.name.toList :=
  spells_self (by cases field <;> decide)

/-- A member names one field. -/
theorem Names.unique (h : Names m field) (h' : Names m field') : field = field' := by
  have hname : field.name = field'.name := String.toList_injective (spells_unique h h')
  have hfield := Field.ofName?_eq_some_iff.2 hname
  rw [Field.ofName?_eq_some_iff.2 rfl] at hfield
  exact (Option.some.inj hfield).symm

theorem Names.iff_eq (h : Names m field) : Names m field' ↔ field' = field := by
  constructor
  · exact fun h' => h'.unique h
  · rintro rfl
    exact h

theorem names_iff (hkey : Spells m.key key) : Names m field ↔ field.name = String.ofList key := by
  constructor
  · intro h
    rw [spells_unique hkey h, String.ofList_toList]
  · intro h
    rwa [Names, h, String.toList_ofList]

/-! ## One member -/

theorem Takes.exists_spells (h : Takes m sizes sizes') : ∃ key, Spells m.key key := by
  cases h with
  | other hkey => exact ⟨_, hkey⟩
  | size hnames => exact ⟨_, hnames⟩

theorem readColon_append {space : List Char} (hspace : IsSpace space) (rest : List Char) :
    readColon (space ++ ':' :: rest) = .ok rest := by
  rw [readColon, skipBlank_append hspace rfl]
  rfl

/-- **A member is read exactly if it is taken**, and it is read to its end. -/
theorem readMember_eq_ok_iff (hspaced : m.IsSpaced) (hvalue : IsValue m.value)
    (hkey : Spells m.key key) (hrest : Ends rest) :
    readMember (String.ofList key) sizes
        (m.beforeColon ++ ':' :: (m.afterColon ++ (m.value ++ rest))) = .ok (sizes', rest') ↔
      Takes m sizes sizes' ∧ rest' = rest := by
  simp only [readMember, readColon_append hspaced.beforeColon]
  split
  next hnone =>
    have hother (field : Field) : ¬Names m field := by
      rw [names_iff hkey]
      exact Field.ofName?_eq_none_iff.1 hnone field
    rw [hvalue.skipValue_eq hspaced.afterColon hrest]
    constructor
    · intro h
      obtain ⟨rfl, rfl⟩ := Prod.mk.inj (Except.ok.inj h)
      exact ⟨.other hkey hother, rfl⟩
    · rintro ⟨htakes, rfl⟩
      cases htakes with
      | other => rfl
      | size hnames => exact absurd hnames (hother _)
  next field hfield =>
    have hnames : Names m field := (names_iff hkey).2 (Field.ofName?_eq_some_iff.1 hfield)
    split
    next hold =>
      refine iff_of_false nofun fun ⟨htakes, _⟩ => ?_
      cases htakes with
      | other _ hother => exact hother field hnames
      | size hnames' hnew =>
        rw [← hnames.unique hnames'] at hnew
        simp [hnew] at hold
    next hnew =>
      simp only [map_eq_ok_iff, Prod.exists, hvalue.readSize_eq_ok_iff hspaced.afterColon hrest]
      constructor
      · rintro ⟨n, _, ⟨hsize, rfl⟩, h⟩
        obtain ⟨rfl, rfl⟩ := Prod.mk.inj h
        exact ⟨.size hnames (by simpa using hnew) hsize, rfl⟩
      · rintro ⟨htakes, rfl⟩
        cases htakes with
        | other _ hother => exact absurd hnames (hother field)
        | size hnames' _ hsize =>
          rw [← hnames.unique hnames']
          exact ⟨_, _, ⟨hsize, rfl⟩, rfl⟩

/-! ## All members -/

theorem takesAll_nil_iff : TakesAll [] sizes sizes' ↔ sizes = sizes' := by
  constructor
  · rintro ⟨⟩
    rfl
  · rintro rfl
    exact .nil

theorem takesAll_cons_iff : TakesAll (m :: members) sizes sizes' ↔
    ∃ sizes₁, Takes m sizes sizes₁ ∧ TakesAll members sizes₁ sizes' := by
  constructor
  · rintro (_ | ⟨h, hrest⟩)
    exact ⟨_, h, hrest⟩
  · rintro ⟨sizes₁, h, hrest⟩
    exact .cons h hrest

theorem readMembers_close {first : Bool} (h : skipBlank cs = '\x7d' :: rest) :
    readMembers first sizes cs = .ok (sizes, '\x7d' :: rest) := by
  have hnext : nextKey first cs = .ok none := by
    simp [nextKey, h]
  rw [readMembers]
  split
  next hkey => simp [hnext] at hkey
  next => rw [h]
  next hkey => simp [hnext] at hkey

/-- One round of the reader. -/
theorem readMembers_next {first : Bool} (h : nextKey first cs = .ok (some rest)) :
    readMembers first sizes cs = .ok (sizes', rest') ↔ ∃ key mid sizes₁ rest₁,
      readString [] rest = .ok (key, mid) ∧
        readMember (String.ofList key) sizes mid = .ok (sizes₁, rest₁) ∧
          readMembers false sizes₁ rest₁ = .ok (sizes', rest') := by
  rw [readMembers]
  split
  next hkey => simp [h] at hkey
  next hkey => simp [h] at hkey
  next hkey =>
    obtain rfl := Option.some.inj (Except.ok.inj (h.symm.trans hkey))
    split
    next hstring => simp [hstring]
    next hstring =>
      split
      next hmember => simp [hstring, hmember]
      next hmember => simp [hstring, hmember]

/-- One member is read, and then those that follow it. -/
theorem readMembers_fromKey {first : Bool} (hspaced : m.IsSpaced) (hvalue : IsValue m.value)
    (hc : c ∈ [',', ']', '\x7d']) (h : nextKey first cs = .ok (some (m.fromKey ++ c :: tail))) :
    readMembers first sizes cs = .ok (sizes', rest') ↔ ∃ sizes₁, Takes m sizes sizes₁ ∧
      readMembers false sizes₁ (m.after ++ c :: tail) = .ok (sizes', rest') := by
  have hends := ends_space_cons hspaced.after hc tail
  have hkey := m.fromKey_append (c :: tail)
  rw [readMembers_next h]
  constructor
  · rintro ⟨key, mid, sizes₁, rest₁, hstring, hmember, hmembers⟩
    -- the reader may stop at no other quote than the one that ends the key
    obtain ⟨body, spelled, hspells, heq, rfl⟩ := readString_eq_ok_iff.1 hstring
    obtain ⟨rfl, rfl⟩ := stringBody_unique hspaced.key hspells.isStringBody (hkey.symm.trans heq)
    obtain ⟨htakes, rfl⟩ := (readMember_eq_ok_iff hspaced hvalue hspells hends).1 hmember
    exact ⟨sizes₁, htakes, hmembers⟩
  · rintro ⟨sizes₁, htakes, hmembers⟩
    obtain ⟨key, hspells⟩ := htakes.exists_spells
    exact ⟨key, _, sizes₁, _, readString_eq_ok_iff.2 ⟨_, _, hspells, hkey, rfl⟩,
      (readMember_eq_ok_iff hspaced hvalue hspells hends).2 ⟨htakes, rfl⟩, hmembers⟩

/-- The members after the first are read exactly if they are taken. -/
theorem readMembers_following {space : List Char} (hspace : IsSpace space)
    (hspaced : ∀ m ∈ members, m.IsSpaced) (hvalues : ∀ m ∈ members, IsValue m.value) :
    readMembers false sizes (space ++ ((members.map Member.chars).flatMap (',' :: ·) ++
        '\x7d' :: rest)) = .ok (sizes', rest') ↔
      TakesAll members sizes sizes' ∧ rest' = '\x7d' :: rest := by
  induction members generalizing sizes space with
  | nil =>
    simp only [List.map_nil, List.flatMap_nil, List.nil_append]
    rw [readMembers_close (skipBlank_append hspace rfl _)]
    simp [takesAll_nil_iff, eq_comm]
  | cons m members ih =>
    obtain ⟨c, tail, hc, hfollow⟩ := exists_follower .object (members.map Member.chars) rest
    simp only [Frame.close] at hfollow
    obtain ⟨hm, hspaced⟩ := List.forall_mem_cons.1 hspaced
    obtain ⟨hvalue, hvalues⟩ := List.forall_mem_cons.1 hvalues
    have hnext : nextKey false (space ++ (((m :: members).map Member.chars).flatMap (',' :: ·) ++
        '\x7d' :: rest)) = .ok (some (m.fromKey ++ c :: tail)) := by
      rw [List.map_cons, List.flatMap_cons, List.append_assoc, hfollow]
      have hcomma : skipBlank (space ++ ',' :: (m.chars ++ c :: tail)) =
          ',' :: (m.chars ++ c :: tail) := skipBlank_append hspace rfl _
      simp [nextKey, hcomma, hm.skipBlank_eq]
    rw [readMembers_fromKey hm hvalue hc hnext, ← hfollow]
    simp only [ih hm.after hspaced hvalues, takesAll_cons_iff, ← and_assoc, exists_and_right]

/-- The members of an object are read exactly if they are taken. -/
theorem readMembers_separated (hne : members ≠ []) (hspaced : ∀ m ∈ members, m.IsSpaced)
    (hvalues : ∀ m ∈ members, IsValue m.value) :
    readMembers true sizes (separated (members.map Member.chars) ++ '\x7d' :: rest) =
        .ok (sizes', rest') ↔
      TakesAll members sizes sizes' ∧ rest' = '\x7d' :: rest := by
  cases members with
  | nil => exact absurd rfl hne
  | cons m members =>
    obtain ⟨c, tail, hc, hfollow⟩ := exists_follower .object (members.map Member.chars) rest
    simp only [Frame.close] at hfollow
    obtain ⟨hm, hspaced⟩ := List.forall_mem_cons.1 hspaced
    obtain ⟨hvalue, hvalues⟩ := List.forall_mem_cons.1 hvalues
    have hnext : nextKey true (separated ((m :: members).map Member.chars) ++ '\x7d' :: rest) =
        .ok (some (m.fromKey ++ c :: tail)) := by
      rw [List.map_cons, separated, List.append_assoc, hfollow]
      simp [nextKey, hm.skipBlank_eq]
    rw [readMembers_fromKey hm hvalue hc hnext, ← hfollow]
    simp only [readMembers_following hm.after hspaced hvalues, takesAll_cons_iff, ← and_assoc,
      exists_and_right]

/-! ## What the members give -/

/-- No member names a field that has a size already. -/
def Free (members : List Member) (sizes : Sizes) : Prop :=
  ∀ m ∈ members, ∀ field, Names m field → field.get? sizes = none

/-- What a member does, field by field. -/
theorem Takes.get?_eq (h : Takes m sizes sizes') (field : Field) :
    (Names m field → field.get? sizes = none ∧ ∃ n, IsSize m.value n ∧ field.get? sizes' = some n) ∧
      (¬Names m field → field.get? sizes' = field.get? sizes) := by
  cases h with
  | other _ hother => exact ⟨fun hnames => absurd hnames (hother field), fun _ => rfl⟩
  | @size field' n hnames' hnew hsize =>
    refine ⟨fun hnames => ?_, fun hnames => ?_⟩
    · obtain rfl := hnames.unique hnames'
      exact ⟨hnew, n, hsize, by rw [field.get?_set, if_pos rfl]⟩
    · rw [field'.get?_set, if_neg]
      rintro rfl
      exact hnames hnames'

/-- A member is taken exactly if its key spells a text, and a field that it names is given by it for
the first time, and by a size. -/
theorem exists_takes_iff : (∃ sizes', Takes m sizes sizes') ↔ (∃ key, Spells m.key key) ∧
    ∀ field, Names m field → field.get? sizes = none ∧ ∃ n, IsSize m.value n := by
  constructor
  · rintro ⟨sizes', h⟩
    refine ⟨h.exists_spells, fun field hnames => ?_⟩
    obtain ⟨hnew, n, hsize, -⟩ := (h.get?_eq field).1 hnames
    exact ⟨hnew, n, hsize⟩
  · rintro ⟨⟨key, hkey⟩, hnamed⟩
    by_cases hother : ∃ field, Names m field
    · obtain ⟨field, hnames⟩ := hother
      obtain ⟨hnew, n, hsize⟩ := hnamed field hnames
      exact ⟨_, .size hnames hnew hsize⟩
    · exact ⟨sizes, .other hkey (not_exists.1 hother)⟩

/-- After a member, the fields that it named are taken. -/
theorem Takes.free_iff (h : Takes m sizes sizes') :
    Free members sizes' ↔ Free members sizes ∧
      ∀ m' ∈ members, ∀ field, Names m field → ¬Names m' field := by
  constructor
  · intro hfree
    have hapart (m' : Member) (hm' : m' ∈ members) (field : Field) (hnames : Names m field) :
        ¬Names m' field := by
      intro hnames'
      obtain ⟨-, n, -, hn⟩ := (h.get?_eq field).1 hnames
      rw [hfree m' hm' field hnames'] at hn
      cases hn
    refine ⟨fun m' hm' field hnames' => ?_, hapart⟩
    rw [← (h.get?_eq field).2 fun hnames => hapart m' hm' field hnames hnames']
    exact hfree m' hm' field hnames'
  · rintro ⟨hfree, hapart⟩ m' hm' field hnames'
    rw [(h.get?_eq field).2 fun hnames => hapart m' hm' field hnames hnames']
    exact hfree m' hm' field hnames'

theorem proper_cons_iff : Proper (m :: members) ↔ Proper members ∧ (∃ key, Spells m.key key) ∧
    (∀ m' ∈ members, ∀ field, Names m field → ¬Names m' field) ∧
      ∀ field, Names m field → ∃ n, IsSize m.value n := by
  constructor
  · rintro ⟨hspelled, honce, hsize⟩
    refine ⟨⟨fun m h => hspelled m (by simp [h]), fun field => (honce field).of_cons,
      fun m h => hsize m (by simp [h])⟩, hspelled m (by simp), fun m' hm' field => ?_,
      hsize m (by simp)⟩
    exact List.rel_of_pairwise_cons (honce field) hm'
  · rintro ⟨⟨hspelled, honce, hsize⟩, hkey, hapart, hm⟩
    refine ⟨?_, fun field => ?_, ?_⟩
    · simpa using ⟨hkey, hspelled⟩
    · exact .cons (fun m' hm' => hapart m' hm' field) (honce field)
    · simpa using ⟨hm, hsize⟩

/-- **Members are taken exactly if they are proper** and name no field that has a size already. -/
theorem exists_takesAll_iff :
    (∃ sizes', TakesAll members sizes sizes') ↔ Proper members ∧ Free members sizes := by
  induction members generalizing sizes with
  | nil => exact iff_of_true ⟨sizes, .nil⟩ ⟨⟨nofun, fun _ => .nil, nofun⟩, nofun⟩
  | cons m members ih =>
    rw [proper_cons_iff]
    constructor
    · rintro ⟨sizes', h⟩
      cases h with
      | cons h hrest =>
        obtain ⟨hproper, hfree⟩ := ih.1 ⟨_, hrest⟩
        obtain ⟨hfree, hapart⟩ := h.free_iff.1 hfree
        obtain ⟨hkey, hnamed⟩ := exists_takes_iff.1 ⟨_, h⟩
        refine ⟨⟨hproper, hkey, hapart, fun field hnames => (hnamed field hnames).2⟩, ?_⟩
        rintro m' hm' field hnames
        rcases List.mem_cons.1 hm' with rfl | hm'
        · exact (hnamed field hnames).1
        · exact hfree m' hm' field hnames
    · rintro ⟨⟨hproper, hkey, hapart, hsize⟩, hfree⟩
      obtain ⟨sizes₁, h⟩ := exists_takes_iff.2
        ⟨hkey, fun field hnames => ⟨hfree m (by simp) field hnames, hsize field hnames⟩⟩
      have hfree₁ := h.free_iff.2 ⟨fun m' hm' => hfree m' (by simp [hm']), hapart⟩
      obtain ⟨sizes', hrest⟩ := ih.2 ⟨hproper, hfree₁⟩
      exact ⟨sizes', .cons h hrest⟩

/-- **A field has the size of the member that names it**, or the one that it had. -/
theorem TakesAll.get?_eq (h : TakesAll members sizes sizes') (field : Field) :
    (∀ m ∈ members, Names m field → ∃ n, IsSize m.value n ∧ field.get? sizes' = some n) ∧
      ((∀ m ∈ members, ¬Names m field) → field.get? sizes' = field.get? sizes) := by
  induction h with
  | nil => exact ⟨nofun, fun _ => rfl⟩
  | @cons m members sizes sizes₁ sizes' h hrest ih =>
    obtain ⟨hnamed, hother⟩ := h.get?_eq field
    have hfree := (exists_takesAll_iff.1 ⟨_, hrest⟩).2
    refine ⟨fun m' hm' hnames => ?_, fun hnone => ?_⟩
    · rcases List.mem_cons.1 hm' with rfl | hm'
      · obtain ⟨-, n, hsize, hn⟩ := hnamed hnames
        refine ⟨n, hsize, ?_⟩
        rw [ih.2 fun m hm => (h.free_iff.1 hfree).2 m hm field hnames, hn]
      · exact ih.1 m' hm' hnames
    · rw [ih.2 fun m' hm' => hnone m' (by simp [hm']), hother (hnone m (by simp))]

/-! ## The object -/

theorem endText_of_isSpace (h : IsSpace cs) : endText cs = .ok () := by
  have hskip : skipBlank cs = [] :=
    List.dropWhile_eq_nil_iff.2 fun c hc => isBlank_iff.2 (h c hc)
  rw [endText, hskip]

/-- What stands between the braces decides, where nothing but white space stands around them. -/
theorem sizesOfJson_braces {before inside after : List Char} (hbefore : IsSpace before)
    (hafter : IsSpace after) (h : ∀ sizes' rest', readMembers true {} (inside ++ '\x7d' :: after) =
      .ok (sizes', rest') ↔ TakesAll members {} sizes' ∧ rest' = '\x7d' :: after) :
    sizesOfJson (before ++ '\x7b' :: (inside ++ '\x7d' :: after)) = .ok sizes' ↔
      TakesAll members {} sizes' := by
  have hsizes : readSizes (before ++ '\x7b' :: (inside ++ '\x7d' :: after)) =
      (readMembers true {} (inside ++ '\x7d' :: after)).map fun p => (p.1, p.2.drop 1) := by
    rw [readSizes, skipBlank_append hbefore rfl]
    rfl
  simp only [sizesOfJson, hsizes, bind_eq_ok_iff, map_eq_ok_iff, Prod.exists, h]
  constructor
  · rintro ⟨sizes, rest, ⟨sizes₁, rest₁, ⟨htakes, rfl⟩, heq⟩, _, -, h⟩
    obtain ⟨rfl, rfl⟩ := Prod.mk.inj heq
    obtain rfl := Except.ok.inj h
    exact htakes
  · intro htakes
    exact ⟨sizes', after, ⟨sizes', _, ⟨htakes, rfl⟩, rfl⟩, (), endText_of_isSpace hafter, rfl⟩

/-- **An object is read exactly if its members are taken.** -/
theorem sizesOfJson_eq_ok_iff (h : IsObjectText members cs) :
    sizesOfJson cs = .ok sizes' ↔ TakesAll members {} sizes' := by
  cases h with
  | empty hbefore hinside hafter =>
    refine sizesOfJson_braces hbefore hafter fun sizes' rest' => ?_
    rw [readMembers_close (skipBlank_append hinside rfl _)]
    simp [takesAll_nil_iff, eq_comm]
  | members hbefore hne hspaced hvalues hafter =>
    exact sizesOfJson_braces hbefore hafter fun sizes' rest' =>
      readMembers_separated hne hspaced hvalues

end Config
end HookPool
