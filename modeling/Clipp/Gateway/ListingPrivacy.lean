import Clipp.Clipboard.Mirror
import Clipp.Clipboard.Wire
import Clipp.Gateway.Listing

open Foundation

namespace ClippProof.Gateway

open ClippModel.Registers ClippModel.Registers.RegisterStore ClippModel.Wire ClippModel.Wire.RegisterWire
  ClippModel.Wire.Peer ClippModel.Gateway ClippModel.Clipboard ClippModel.Clipboard.ClipboardPayload
  ClippProof.Registers ClippProof.Wire ClippProof.Clipboard

variable {C : Codec} {s₁ s₂ : RegisterStore} {t : Readings} {names : DisplayNames} {a b : RegisterRecord}

/-- Two items marked private that differ in their content alone, of one length. -/
structure AlikeItems (C : Codec) (p q : ClipboardPayload) : Prop where
  marked : p.isSourceMarkedPrivate = true ∧ q.isSourceMarkedPrivate = true
  format : p.meta_.formatId = q.meta_.formatId
  content : ∃ bytes bytes', tryGetUncompressedBytes C p = some bytes ∧ tryGetUncompressedBytes C q = some bytes' ∧
    bytes.length = bytes'.length

/-- Records equal but for private content: a private register's value, or the mirror of a private item. -/
inductive Alike (C : Codec) (a b : RegisterRecord) : Prop where
  | equal (same : a = b)
  | register (rest : b = { a with value := b.value }) (isPrivate : a.isPrivate = true)
      (length : a.value.length = b.value.length)
  | mirror (rest : b = { a with value := b.value }) (name : a.name = []) (flags : a.flags = 0)
      (items : ∃ p q, AlikeItems C p q ∧ mirroredText C p = some a.value ∧ mirroredText C q = some b.value)

structure AlikeStores (C : Codec) (s₁ s₂ : RegisterStore) : Prop where
  rest : s₂ = { s₁ with records := s₂.records }
  records : List.Forall₂ (Alike C) s₁.records.entries s₂.records.entries

/-- A listed mirror has one length and one preview in both states. -/
def MirrorAgrees (s₁ s₂ : RegisterStore) (t : Readings) : Prop :=
  ∀ a b, s₁.records.find [] = some a → s₂.records.find [] = some b → live s₁ t a = true →
    a.isPrivate = true ∨
      (a.value.length = b.value.length ∧ a.value.take kMaxPreviewLen = b.value.take kMaxPreviewLen)

theorem Alike.rest (alike : Alike C a b) : b = { a with value := b.value } := by
  cases alike with
  | equal same => rw [same]
  | register rest => exact rest
  | mirror rest => exact rest

theorem Alike.name (alike : Alike C a b) : b.name = a.name := by rw [alike.rest]

theorem Alike.live (alike : Alike C a b) (stores : AlikeStores C s₁ s₂) : live s₂ t b = live s₁ t a := by
  rw [alike.rest, stores.rest]
  rfl

theorem alike_liveRecords (stores : AlikeStores C s₁ s₂) (t : Readings) :
    List.Forall₂ (Alike C) (liveRecords s₁ t) (liveRecords s₂ t) := by
  refine List.rel_filter ?_ stores.records
  intro a b alike
  have same := alike.live (t := t) stores
  simp only [same]

theorem listPreview_private (isPrivate : a.isPrivate = true) : listPreview a = [] := by
  rw [listPreview, if_pos isPrivate]

theorem listPreview_plain (flags : a.flags = 0) : listPreview a = a.value.take kMaxPreviewLen := by
  have open_ : a.isPrivate = false := by
    rw [RegisterRecord.isPrivate, flags]
    decide
  have text : a.isBinary = false := by
    rw [RegisterRecord.isBinary, flags]
    decide
  rw [listPreview, open_, text, min_comm, take_capped]
  rfl

theorem listEntry_eq (rest : b = { a with value := b.value }) (length : a.value.length = b.value.length)
    (preview : listPreview a = listPreview b) : listEntry names a = listEntry names b := by
  have fields : b.name = a.name ∧ b.touched = a.touched ∧ b.originHostId = a.originHostId ∧ b.flags = a.flags := by
    rw [rest]
    exact ⟨rfl, rfl, rfl, rfl⟩
  simp only [listEntry, length, preview, fields]

theorem Alike.listEntry_eq (alike : Alike C a b)
    (mirrored : a.name = [] → a.isPrivate = true ∨
      (a.value.length = b.value.length ∧ a.value.take kMaxPreviewLen = b.value.take kMaxPreviewLen)) :
    listEntry names a = listEntry names b := by
  cases alike with
  | equal same => rw [same]
  | register rest isPrivate length =>
    have alsoPrivate : b.isPrivate = true := by
      rw [rest]
      exact isPrivate
    exact Gateway.listEntry_eq rest length
      ((listPreview_private isPrivate).trans (listPreview_private alsoPrivate).symm)
  | mirror rest name flags =>
    have alsoPlain : b.flags = 0 := by
      rw [rest]
      exact flags
    rcases mirrored name with isPrivate | ⟨length, preview⟩
    · rw [RegisterRecord.isPrivate, flags] at isPrivate
      exact absurd isPrivate (by decide)
    · exact Gateway.listEntry_eq rest length
        ((listPreview_plain flags).trans (preview.trans (listPreview_plain alsoPlain).symm))

theorem forall₂_mem {l u : List RegisterRecord} {R : RegisterRecord → RegisterRecord → Prop}
    (related : List.Forall₂ R l u) : List.Forall₂ (fun a b => R a b ∧ a ∈ l ∧ b ∈ u) l u := by
  induction related with
  | nil => exact .nil
  | cons first _ ih =>
    refine .cons ⟨first, List.mem_cons_self, List.mem_cons_self⟩ (ih.imp ?_)
    rintro a b ⟨related, left, right⟩
    exact ⟨related, List.mem_cons_of_mem _ left, List.mem_cons_of_mem _ right⟩

theorem map_eq_of_forall₂ {l u : List RegisterRecord} {f : RegisterRecord → RegisterListEntry}
    (same : List.Forall₂ (fun a b => f a = f b) l u) : l.map f = u.map f := by
  induction same with
  | nil => rfl
  | cons first _ ih => rw [List.map_cons, List.map_cons, first, ih]

theorem response_eq_of_agrees (stores : AlikeStores C s₁ s₂) (agrees : MirrorAgrees s₁ s₂ t) :
    listResponse names s₁ t = listResponse names s₂ t := by
  rw [listResponse, listResponse, list_result, list_result]
  congr 1
  apply map_eq_of_forall₂
  apply (forall₂_mem (alike_liveRecords stores t)).imp
  rintro a b ⟨alike, left, right⟩
  apply alike.listEntry_eq
  intro nameless
  have named : b.name = [] := alike.name.trans nameless
  obtain ⟨inFirst, isLive⟩ := List.mem_filter.mp left
  have inSecond := (List.mem_filter.mp right).1
  exact agrees a b (nameless ▸ KeyedMap.find_self inFirst) (named ▸ KeyedMap.find_self inSecond) isLive

theorem liveRecords_head (found : s₁.records.find [] = some a) (isLive : live s₁ t a = true) :
    ∃ rest, liveRecords s₁ t = a :: rest := by
  obtain ⟨member, nameless⟩ := KeyedMap.find_eq_some.mp found
  have sorted := s₁.records.ascending
  unfold liveRecords
  cases entries : s₁.records.entries with
  | nil =>
    rw [entries] at member
    cases member
  | cons first rest =>
    rw [entries] at member sorted
    have isFirst : first = a := by
      rcases List.mem_cons.mp member with same | later
      · exact same.symm
      · have below := (List.pairwise_cons.mp sorted).1 a later
        rw [nameless] at below
        exact absurd below (List.not_lt_nil _)
    rw [isFirst, List.filter_cons_of_pos isLive]
    exact ⟨_, rfl⟩

theorem encodeList_head {e e' : RegisterListEntry} {l l' : List RegisterListEntry}
    (names : e.name.length ≤ kMaxNameLen ∧ e'.name.length ≤ kMaxNameLen) (length : l.length = l'.length)
    (same : encodeList (e :: l) = encodeList (e' :: l')) : shipped e = shipped e' := by
  have size : (e :: l).length = (e' :: l').length := congrArg Nat.succ length
  rw [encodeList_eq, encodeList_eq] at same
  simp only [List.length_take, size] at same
  have entries := List.append_cancel_left (List.append_cancel_left same)
  have head := reads_listEntry names.1 ((l.take (kMaxDigestEntries - 1)).flatMap encodeListEntry)
  have head' := reads_listEntry names.2 ((l'.take (kMaxDigestEntries - 1)).flatMap encodeListEntry)
  have firsts : encodeListEntry e ++ (l.take (kMaxDigestEntries - 1)).flatMap encodeListEntry =
      encodeListEntry e' ++ (l'.take (kMaxDigestEntries - 1)).flatMap encodeListEntry := entries
  rw [firsts, head', Option.some.injEq] at head
  exact (congrArg Prod.fst head).symm

/-- Two mirrors of items of one length differ in length by a terminator at most, so their sizes on the wire
    tell their lengths apart. -/
theorem mirror_length (items : ∃ p q, AlikeItems C p q ∧ mirroredText C p = some a.value ∧
      mirroredText C q = some b.value)
    (size : UInt64.ofNat a.value.length = UInt64.ofNat b.value.length) : a.value.length = b.value.length := by
  obtain ⟨p, q, alike, left, right⟩ := items
  obtain ⟨bytes, bytes', content, content', length⟩ := alike.content
  obtain ⟨_, text, read, isLeft⟩ := mirroredText_eq_some.mp left
  obtain ⟨_, text', read', isRight⟩ := mirroredText_eq_some.mp right
  rw [content, Option.some.injEq] at read
  rw [content', Option.some.injEq] at read'
  subst read read'
  have bounds := logicalText_length bytes
  have bounds' := logicalText_length bytes'
  have sizes := congrArg UInt64.toNat size
  rw [UInt64.toNat_ofNat', UInt64.toNat_ofNat'] at sizes
  rw [isLeft, isRight] at sizes ⊢
  omega

theorem agrees_of_response_eq (stores : AlikeStores C s₁ s₂)
    (same : listResponse names s₁ t = listResponse names s₂ t) : MirrorAgrees s₁ s₂ t := by
  intro a b foundFirst foundSecond isLive
  obtain ⟨rest, first⟩ := liveRecords_head foundFirst isLive
  have paired := alike_liveRecords stores t
  rw [first] at paired
  cases second : liveRecords s₂ t with
  | nil =>
    rw [second] at paired
    cases paired
  | cons b' rest' =>
    rw [second] at paired
    obtain ⟨alike, others⟩ := List.forall₂_cons.mp paired
    have nameless : a.name = [] := KeyedMap.find_key foundFirst
    have nameless' : b'.name = [] := alike.name.trans nameless
    have member : b' ∈ s₂.records.entries := by
      have inList : b' ∈ liveRecords s₂ t := second ▸ List.mem_cons_self
      exact (List.mem_filter.mp inList).1
    have here : b' = b := by
      have found := KeyedMap.find_self member
      rw [nameless', foundSecond] at found
      exact (Option.some.inj found).symm
    subst here
    rw [listResponse, listResponse, list_result, list_result, first, second, List.map_cons, List.map_cons] at same
    have short : a.name.length ≤ kMaxNameLen ∧ b'.name.length ≤ kMaxNameLen := by
      rw [nameless, nameless']
      exact ⟨Nat.zero_le _, Nat.zero_le _⟩
    have lengths : (rest.map (listEntry names)).length = (rest'.map (listEntry names)).length := by
      rw [List.length_map, List.length_map, others.length_eq]
    have entry : shipped (listEntry names a) = shipped (listEntry names b') := encodeList_head short lengths same
    cases alike with
    | equal equal => exact .inr (by rw [equal]; exact ⟨rfl, rfl⟩)
    | register _ isPrivate => exact .inl isPrivate
    | mirror rest name flags items =>
      have plain : b'.flags = 0 := by
        rw [rest]
        exact flags
      have preview := congrArg RegisterListEntry.preview entry
      simp only [shipped, listEntry, listPreview_plain flags, listPreview_plain plain, List.take_take, min_self]
        at preview
      exact .inr ⟨mirror_length items (congrArg RegisterListEntry.valueSize entry), preview⟩

/-- Private registers never show in a listing; the mirror of a private item stays hidden exactly when it has
    one length and one preview in both states. -/
theorem listing_noninterference_iff (stores : AlikeStores C s₁ s₂) (names : DisplayNames) (t : Readings) :
    listResponse names s₁ t = listResponse names s₂ t ↔ MirrorAgrees s₁ s₂ t :=
  ⟨agrees_of_response_eq stores, response_eq_of_agrees stores⟩

theorem place_alike {l u : List RegisterRecord} (related : List.Forall₂ (Alike C) l u) (alike : Alike C a b) :
    List.Forall₂ (Alike C) (KeyedMap.place RegisterRecord.name a l) (KeyedMap.place RegisterRecord.name b u) := by
  induction related with
  | nil => exact .cons alike .nil
  | cons first others ih =>
    simp only [KeyedMap.place, alike.name, first.name]
    split_ifs
    · exact .cons alike (.cons first others)
    · exact .cons alike others
    · exact .cons first ih

theorem AlikeStores.mirror (stores : AlikeStores C s₁ s₂) {p q : ClipboardPayload} (items : AlikeItems C p q)
    (t : Readings) : AlikeStores C (mirrorClipboardToDefaultRegister C s₁ t p)
      (mirrorClipboardToDefaultRegister C s₂ t q) := by
  obtain ⟨bytes, bytes', content, content', length⟩ := items.content
  by_cases text : isClippTextFormat p.meta_.formatId = true
  · have left : mirroredText C p = some (logicalText bytes) := mirroredText_eq_some.mpr ⟨text, _, content, rfl⟩
    have right : mirroredText C q = some (logicalText bytes') :=
      mirroredText_eq_some.mpr ⟨items.format ▸ text, _, content', rfl⟩
    simp only [mirrorClipboardToDefaultRegister, left, right]
    have rest := stores.rest
    refine ⟨by rw [rest]; rfl, ?_⟩
    have clock : s₂.clock = s₁.clock ∧ s₂.localHost = s₁.localHost := by
      rw [rest]
      exact ⟨rfl, rfl⟩
    refine place_alike stores.records (.mirror ?_ rfl rfl ⟨p, q, items, left, right⟩)
    simp only [clock]
  · have left : mirroredText C p = none := by simp [mirroredText, text]
    have right : mirroredText C q = none := by simp [mirroredText, ← items.format, text]
    simp only [mirrorClipboardToDefaultRegister, left, right]
    exact stores

theorem alikeStores_refl (C : Codec) (s : RegisterStore) : AlikeStores C s s :=
  ⟨rfl, List.forall₂_same.mpr fun _ _ => .equal rfl⟩

section Samples

def markedText (text : Bytes) : ClipboardPayload where
  meta_ := { ClipboardMessage.zero with flags := clpmFlagSourceMarkedPrivate, formatId := clippFormatUtf8 }
  encoded := text

def afterSecret (text : Bytes) : RegisterStore :=
  mirrorClipboardToDefaultRegister runLength (defaultStore HostId.zero {}) (.all 1000) (markedText text)

theorem alike_secrets (text text' : Bytes) (length : text.length = text'.length) :
    AlikeStores runLength (afterSecret text) (afterSecret text') := by
  have marked : clpmFlagSourceMarkedPrivate &&& clpmFlagSourceMarkedPrivate ≠ 0 := by decide
  have items : AlikeItems runLength (markedText text) (markedText text') :=
    ⟨⟨decide_eq_true marked, decide_eq_true marked⟩, rfl, text, text', rfl, rfl, length⟩
  exact (alikeStores_refl runLength (defaultStore HostId.zero {})).mirror items (.all 1000)

/-- Two secrets of one byte give two listings. -/
theorem secret_shows_in_listing : ¬ ∀ (C : Codec) (s₁ s₂ : RegisterStore) (names : DisplayNames) (t : Readings),
    AlikeStores C s₁ s₂ → listResponse names s₁ t = listResponse names s₂ t := by
  intro hidden
  have same := hidden runLength _ _ unnamed (.all 1000) (alike_secrets [0x61] [0x62] rfl)
  exact absurd same (by decide +kernel)

def privateRegister (value : Bytes) : RegisterRecord :=
  writtenRecord [0x6B] value RegisterFlags.private_ HostId.zero { wallMs := 1000, counter := 0 }

def withPrivate (value : Bytes) : RegisterStore :=
  { defaultStore HostId.zero {} with records := KeyedMap.empty.put (privateRegister value) }

theorem private_registers_list_alike :
    listResponse unnamed (withPrivate [0x61]) (.all 1000) = listResponse unnamed (withPrivate [0x62]) (.all 1000) := by
  have registers : Alike runLength (privateRegister [0x61]) (privateRegister [0x62]) := .register rfl rfl rfl
  have stores : AlikeStores runLength (withPrivate [0x61]) (withPrivate [0x62]) := ⟨rfl, .cons registers .nil⟩
  have absent : (withPrivate [0x61]).records.find [] = none := by decide
  apply (listing_noninterference_iff stores unnamed (.all 1000)).mpr
  intro a b found
  rw [absent] at found
  cases found

end Samples

end ClippProof.Gateway
