import Clipp.Wire.RegisterCursor

open Foundation

namespace ClippProof.Wire

open ClippModel.Registers ClippModel.Wire ClippModel.Wire.RegisterWire

theorem extends_u8 : Reader.Extends u8 := by
  intro input b left read more
  cases input with
  | nil => cases read
  | cons head rest =>
    cases read
    rfl

theorem extends_hlc : Reader.Extends readHlc := .bind (.bytes _) fun _ => .pure _

theorem extends_hostId : Reader.Extends readHostId := by
  intro input host left read more
  unfold readHostId at read ⊢
  split_ifs at read with size
  cases read
  have longer : HostId.kSize ≤ (input ++ more).length := by
    rw [List.length_append]
    omega
  rw [dif_pos longer]
  simp only [List.take_append_of_le_length size, List.drop_append_of_le_length size]

theorem extends_record : Reader.Extends recordBody :=
  extends_u8.bind fun _ => .bind (.check _) fun _ => extends_u8.bind fun _ => extends_u8.bind fun _ =>
    extends_u8.bind fun _ => extends_hlc.bind fun _ => extends_hlc.bind fun _ => extends_hostId.bind fun _ =>
      .bind (.int _) fun _ => .bind (.check _) fun _ => .bind (.bytes _) fun _ => .bind (.int _) fun _ =>
        .bind (.check _) fun _ => .bind (.bytes _) fun _ => .pure _

theorem extends_digest : Reader.Extends digestBody :=
  extends_u8.bind fun _ => .bind (.check _) fun _ => .bind (.int _) fun _ => .bind (.check _) fun _ =>
    .times _ (.bind (.int _) fun _ => .bind (.check _) fun _ => .bind (.bytes _) fun _ =>
      extends_hlc.bind fun _ => extends_hlc.bind fun _ => .pure _)

theorem extends_name : Reader.Extends nameBody :=
  extends_u8.bind fun _ => .bind (.check _) fun _ => .bind (.int _) fun _ => .bind (.check _) fun _ => .bytes _

theorem extends_list : Reader.Extends listBody :=
  extends_u8.bind fun _ => .bind (.check _) fun _ => .bind (.int _) fun _ => .bind (.check _) fun _ =>
    .times _ (.bind (.int _) fun _ => .bind (.check _) fun _ => .bind (.bytes _) fun _ => extends_hlc.bind fun _ =>
      .bind (.int _) fun _ => extends_hostId.bind fun _ => extends_u8.bind fun _ => .bind (.int _) fun _ =>
        .bind (.check _) fun _ => .bind (.bytes _) fun _ => .bind (.int _) fun _ => .bind (.check _) fun _ =>
          .bind (.bytes _) fun _ => .pure _)

def DigestWithin (entries : List RegisterDigestEntry) : Prop :=
  entries.length ≤ kMaxDigestEntries ∧ ∀ e ∈ entries, e.name.length ≤ kMaxNameLen

def EntryWithin (e : RegisterListEntry) : Prop :=
  e.name.length ≤ kMaxNameLen ∧ e.preview.length ≤ kMaxPreviewLen ∧ e.originHostName.length ≤ kMaxOriginNameLen

def ListWithin (entries : List RegisterListEntry) : Prop :=
  entries.length ≤ kMaxDigestEntries ∧ ∀ e ∈ entries, EntryWithin e

variable {body left : Bytes}

theorem digestEntry_bounded {e : RegisterDigestEntry} (read : digestEntryBody body = some (e, left)) :
    e.name.length ≤ kMaxNameLen := by
  obtain ⟨name, _, short, read⟩ := Reader.capped_field read
  obtain ⟨_, _, _, read⟩ := Reader.bind_eq_some.mp read
  obtain ⟨_, _, _, result⟩ := Reader.bind_eq_some.mp read
  obtain ⟨rfl, _⟩ := Reader.pure_eq_some.mp result
  exact short

theorem listEntry_bounded {e : RegisterListEntry} (read : listEntryBody body = some (e, left)) : EntryWithin e := by
  obtain ⟨name, _, nameShort, read⟩ := Reader.capped_field read
  obtain ⟨_, _, _, read⟩ := Reader.bind_eq_some.mp read
  obtain ⟨_, _, _, read⟩ := Reader.bind_eq_some.mp read
  obtain ⟨_, _, _, read⟩ := Reader.bind_eq_some.mp read
  obtain ⟨_, _, _, read⟩ := Reader.bind_eq_some.mp read
  obtain ⟨preview, _, previewShort, read⟩ := Reader.capped_field read
  obtain ⟨host, _, hostShort, result⟩ := Reader.capped_field read
  obtain ⟨rfl, _⟩ := Reader.pure_eq_some.mp result
  exact ⟨nameShort, previewShort, hostShort⟩

theorem counted_bounded {α : Type} {entry : Reader α} {cap : Nat} {entries : List α}
    (read : (do
        let version ← u8
        Reader.check (version = kVersion)
        let count ← Reader.int 2
        Reader.check (count ≤ cap)
        Reader.times count entry) body = some (entries, left)) :
    entries.length ≤ cap ∧ ∀ e ∈ entries, ∃ from_ mid, entry from_ = some (e, mid) := by
  obtain ⟨_, _, _, read⟩ := Reader.bind_eq_some.mp read
  obtain ⟨_, _, _, read⟩ := Reader.bind_eq_some.mp read
  obtain ⟨count, _, _, read⟩ := Reader.bind_eq_some.mp read
  obtain ⟨_, _, capped, read⟩ := Reader.bind_eq_some.mp read
  obtain ⟨size, each⟩ := Reader.times_eq_some read
  refine ⟨?_, each⟩
  rw [size]
  exact (Reader.check_eq_some.mp capped).1

theorem digest_bounded {entries : List RegisterDigestEntry} (read : digestBody body = some (entries, left)) :
    DigestWithin entries := by
  obtain ⟨size, each⟩ := counted_bounded read
  refine ⟨size, fun e member => ?_⟩
  obtain ⟨_, _, one⟩ := each e member
  exact digestEntry_bounded one

theorem list_bounded {entries : List RegisterListEntry} (read : listBody body = some (entries, left)) :
    ListWithin entries := by
  obtain ⟨size, each⟩ := counted_bounded read
  refine ⟨size, fun e member => ?_⟩
  obtain ⟨_, _, one⟩ := each e member
  exact listEntry_bounded one

theorem name_bounded {name : Bytes} (read : nameBody body = some (name, left)) : name.length ≤ kMaxNameLen := by
  obtain ⟨_, _, _, read⟩ := Reader.bind_eq_some.mp read
  obtain ⟨_, _, _, read⟩ := Reader.bind_eq_some.mp read
  obtain ⟨size, _, _, read⟩ := Reader.bind_eq_some.mp read
  obtain ⟨_, _, capped, taken⟩ := Reader.bind_eq_some.mp read
  rw [(Reader.bytes_eq_some.mp taken).2]
  exact (Reader.check_eq_some.mp capped).1

theorem shipped_within {e : RegisterListEntry} (fits : EntryWithin e) : shipped e = e := by
  rw [shipped, List.take_of_length_le fits.2.1, List.take_of_length_le fits.2.2]

theorem record_faithful :
    Scan.Faithful (fun r : RegisterRecord × UInt8 => encodeRecord r.1 r.2) RegisterCursor.tryDecodeRecord
      (fun r => WithinCaps r.1) :=
  follows_record.faithful extends_record (fun r caps => reads_record caps r.2)
    fun _ _ decoded => tryDecodeRecord_withinCaps decoded

theorem digest_faithful : Scan.Faithful encodeDigest RegisterCursor.tryDecodeDigest DigestWithin := by
  refine follows_digest.faithful extends_digest (fun entries fits => ?_)
    fun _ _ decoded => digest_bounded (Reader.whole_eq_some.mp decoded)
  have reads := reads_digest fits.2
  rwa [List.take_of_length_le fits.1] at reads

theorem name_faithful :
    Scan.Faithful encodeName RegisterCursor.tryDecodeName (fun name => name.length ≤ kMaxNameLen) :=
  follows_name.faithful extends_name (fun _ short => reads_name short)
    fun _ _ decoded => name_bounded (Reader.whole_eq_some.mp decoded)

theorem list_faithful : Scan.Faithful encodeList RegisterCursor.tryDecodeList ListWithin := by
  refine follows_list.faithful extends_list (fun entries fits => ?_)
    fun _ _ decoded => list_bounded (Reader.whole_eq_some.mp decoded)
  have reads := reads_list fun e member => (fits.2 e member).1
  have same : (entries.take kMaxDigestEntries).map shipped = entries := by
    rw [List.take_of_length_le fits.1]
    exact (List.map_congr_left fun e member => shipped_within (fits.2 e member)).trans (List.map_id entries)
  rwa [same] at reads

/-- All four codecs: the value comes back, a shorter or a longer input is refused, whatever decodes is within the
limits, and no input makes a decoder read outside of it. -/
theorem codecs_are_faithful :
    Scan.Faithful (fun r : RegisterRecord × UInt8 => encodeRecord r.1 r.2) RegisterCursor.tryDecodeRecord
        (fun r => WithinCaps r.1) ∧
      Scan.Faithful encodeDigest RegisterCursor.tryDecodeDigest DigestWithin ∧
      Scan.Faithful encodeName RegisterCursor.tryDecodeName (fun name => name.length ≤ kMaxNameLen) ∧
      Scan.Faithful encodeList RegisterCursor.tryDecodeList ListWithin :=
  ⟨record_faithful, digest_faithful, name_faithful, list_faithful⟩

end ClippProof.Wire
