import Mathlib.Algebra.Order.BigOperators.Group.List
import Mathlib.Algebra.Order.Ring.Nat
import Mathlib.Data.List.Nodup
import Mathlib.Data.List.Perm.Subperm
import JobBroker.Proofs.Packet.Grammar

/-! The canonical spelling. What a peer may spell in any case, with keys twice, in any order and
with zeros before its length is encoded again in one way, which is decoded to the same packet and
is no longer. -/
namespace JobBroker

namespace Value

theorem upper_upper (v : Value) : v.upper.upper = v.upper := by
  have htext : ∀ text : String,
      (text.map Char.toUpper).map Char.toUpper = text.map Char.toUpper := by
    intro text
    rw [← String.toList_inj, String.toList_map, String.toList_map, List.map_map]
    exact List.map_congr_left fun c _ => toUpper_toUpper c
  cases v with
  | scalar text => rw [upper, upper, htext]
  | array elements =>
    simp only [upper, List.map_map, Function.comp_def, htext]

theorem IsClean.upper {v : Value} (h : v.IsClean) : v.upper.IsClean := by
  rw [← isWritable_iff, isWritable_upper]
  exact (isWritable_iff v).2 h

end Value

theorem length_utf8_intercalate (pieces : List (List Char)) :
    (Text.utf8 (List.intercalate [','] pieces)).length =
      (pieces.map fun piece => (Text.utf8 piece).length + 1).sum - 1 := by
  have hcomma : (Text.utf8 [',']).length = 1 := by decide
  induction pieces with
  | nil => rfl
  | cons piece pieces ih =>
    cases pieces with
    | nil => simp
    | cons next pieces =>
      rw [List.intercalate_cons_cons, Text.utf8_append, Text.utf8_append, List.length_append,
        List.length_append, ih, hcomma]
      simp only [List.map_cons, List.sum_cons]
      omega

theorem length_header_le {held given : List (Key × Value)} (h : held.Subperm given) :
    (Text.utf8 (List.intercalate [','] (held.map Packet.item))).length ≤
      (Text.utf8 (List.intercalate [','] (given.map Packet.item))).length := by
  obtain ⟨chosen, hperm, hsublist⟩ := h
  rw [length_utf8_intercalate, length_utf8_intercalate, List.map_map, List.map_map,
    ← (hperm.map _).sum_eq]
  exact Nat.sub_le_sub_right ((hsublist.map _).sum_le_sum fun _ _ => Nat.zero_le _) 1

theorem Arguments.nodup_toList (a : Arguments) : a.toList.Nodup := by
  have hkeys : Key.all.Nodup := by decide
  refine List.Nodup.filterMap ?_ hkeys
  intro k l kv hk hl
  obtain ⟨v, -, rfl⟩ := Option.map_eq_some_iff.1 (Option.mem_def.1 hk)
  obtain ⟨w, -, hw⟩ := Option.map_eq_some_iff.1 (Option.mem_def.1 hl)
  exact (congrArg Prod.fst hw).symm

namespace Spelling
variable {s : Spelling} {p : Packet} {k : Key} {v : Value}

theorem Says.spelled (h : s.Says p) (hv : p.get? k = some v) :
    ∃ i ∈ s.items, (k, v) = i.entry := by
  rw [h.2 k] at hv
  obtain ⟨i, hlast, rfl⟩ := Option.map_eq_some_iff.1 hv
  rw [Item.last?] at hlast
  have hkey : i.key = k := by
    simpa using List.find?_some hlast
  exact ⟨i, List.mem_reverse.1 (List.mem_of_find?_eq_some hlast), by rw [Item.entry, hkey]⟩

theorem Says.isClean (h : s.Says p) : p.IsClean := by
  intro k v hv
  obtain ⟨i, hi, hentry⟩ := h.spelled hv
  obtain ⟨-, rfl⟩ := Prod.mk.inj hentry
  exact (s.clean i hi).upper

theorem Says.upper_eq (h : s.Says p) : p.upper = p := by
  refine Packet.ext_get? (fun k => ?_) rfl
  rw [Packet.get?_upper]
  cases hv : p.get? k with
  | none => rfl
  | some v =>
    obtain ⟨i, -, hentry⟩ := h.spelled hv
    obtain ⟨-, rfl⟩ := Prod.mk.inj hentry
    rw [Option.map_some, Value.upper_upper]

theorem Says.subperm (h : s.Says p) : p.args.toList.Subperm (s.items.map Item.entry) := by
  refine List.subperm_of_subset p.args.nodup_toList ?_
  rintro ⟨k, v⟩ hkv
  obtain ⟨i, hi, hentry⟩ := h.spelled ((p.args.mem_toList k v).1 hkv)
  rw [hentry]
  exact List.mem_map_of_mem hi

theorem Says.length_body_le (h : s.Says p) : p.body.length ≤ s.frame.body.length := by
  have hheader := length_header_le h.subperm
  rw [Item.header_entry, length_utf8_toUpper] at hheader
  rw [s.body, Packet.body, Packet.header, h.1, List.length_append, List.length_append]
  exact Nat.add_le_add_right hheader _

end Spelling

namespace Packet

theorem exists_frame {p : Packet} {bytes : Bytes} (h : p.encode = .ok bytes) :
    ∃ f : Frame, f.bytes = bytes ∧ f.body = p.body := by
  obtain ⟨-, hsize, rfl⟩ := (encode_ok_iff p bytes).1 h
  have hsome : 1 ≤ p.body.length := by
    rw [body, List.length_append, List.length_cons]
    omega
  exact ⟨Frame.ofBody p.body hsome hsize, Frame.bytes_ofBody p.body hsome hsize, rfl⟩

/-- Whatever is decoded can be encoded, in a body no longer than the one it came in. That spelling
is decoded to the same packet, and what is decoded from it is encoded to it again. -/
theorem canonical_spelling {b : Bytes} {p : Packet} (h : decode b = .ok p) :
    ∃ bytes, p.encode = .ok bytes ∧
      (∃ given canonical : Frame, given.bytes = b ∧ canonical.bytes = bytes ∧
        canonical.body.length ≤ given.body.length) ∧
      decode bytes = .ok p ∧ ∀ q, decode bytes = .ok q → q.encode = .ok bytes := by
  obtain ⟨s, rfl⟩ := Spelling.exists_of_decode h
  rw [s.decode_frame] at h
  have hmeant : s.Says p := (s.says_iff p).2 (Except.ok.inj h).symm
  have hbody := hmeant.length_body_le
  obtain ⟨bytes, hencode⟩ := hmeant.isClean.encodes_iff.2 (hbody.trans s.frame.bounded)
  have hdecode := decode_encoded hencode
  rw [hmeant.upper_eq] at hdecode
  refine ⟨bytes, hencode, ?_, hdecode, fun q hq => ?_⟩
  · obtain ⟨canonical, hbytes, hcanonical⟩ := exists_frame hencode
    exact ⟨s.frame, canonical, rfl, hbytes, hcanonical ▸ hbody⟩
  · rw [hdecode] at hq
    rwa [← Except.ok.inj hq]

/-- Small letters, a key twice, keys out of order and a zero before the length. -/
theorem canonical_spelling_twice :
    let b := Text.utf8 "(032)Job_Id:7,job_type:b,Job_Type:a\nx".toList
    let p := ((Packet.set {} .jobType (.scalar "A")).set .jobId (.scalar "7")).withMessage [120]
    let canonical := Text.utf8 "(21)JOB_TYPE:A,JOB_ID:7\nx".toList
    decode b = .ok p ∧ p.encode = .ok canonical ∧ decode canonical = .ok p := by
  intro b p canonical
  have hdecode : decode b = .ok p := by
    decide +kernel
  have hcanonical : p.encode = .ok canonical := by
    decide +kernel
  obtain ⟨bytes, hencode, -, hagain, -⟩ := canonical_spelling hdecode
  rw [hcanonical] at hencode
  obtain rfl := Except.ok.inj hencode
  exact ⟨hdecode, hcanonical, hagain⟩

end Packet

end JobBroker
