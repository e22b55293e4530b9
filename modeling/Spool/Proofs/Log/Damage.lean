import Spool.Proofs.Bytes.Burst
import Spool.Proofs.Log.Removal

namespace Spool.Log

-- The state with other bytes in one file.
def withContent (s : Host × Log) (file : FileId) (c : Content) : Host × Log :=
  ({ s.1 with disk := s.1.disk.setContent file c }, s.2)

namespace Entry

-- A position among the bytes of the payload.
def Covers (e : Entry) (position : Nat) : Prop :=
  e.offset.toNat ≤ position ∧ position < e.finish

-- Some of the bytes of the payload were changed, all of them within four in a row.
structure Burst (e : Entry) (c c' : Content) : Prop where
  size : c.size ≤ c'.size
  changed : ∃ p, e.Covers p ∧ c'.byteAt p ≠ c.byteAt p
  within : ∃ start, ∀ p, e.Covers p → p < start ∨ start + 4 ≤ p → c'.byteAt p = c.byteAt p

end Entry

-- What is read after some bytes of the data page that an entry names were changed.
structure Detects (s t : Host × Log) (index : UInt64) (page : UInt64) (c c' : Content) : Prop where
  corrupted : ((Log.fetch index).run t).1 = .error (.corrupted index)
  others : ∀ other e, ((Log.readEntry other).run s).1 = .ok e →
    (e.dataPage = page → ∀ p, e.Covers p → c'.byteAt p = c.byteAt p) →
      ((Log.fetch other).run t).1 = ((Log.fetch other).run s).1

section

variable {dir : Path} {base : Location} {s : Host × Log} {b : Books} {index : UInt64}
  {payload : Bytes} {file : FileId} {c c' : Content} {e : Entry}

-- What happens in one directory from outside shows in its image and nowhere else.
theorem Shows.beneath {host : Host} {img : Image} (h : Shows dir base s b) (f : Folder)
    (hcarries : Cache.Carries (f.name :: base) (s.1, f.cache s.2) (host, f.cache s.2) img) :
    Leads dir base s (host, s.2) (b.setImage f img) := by
  have hends := h.faces.inside f (Step.ends_set (s := (s.1, f.cache s.2)) hcarries)
  have hstate : ((Step.inside f.part (set (host, f.cache s.2))).run s).2 = (host, s.2) :=
    f.set_part_cache s host
  rw [← hstate]
  exact hends.2.leads h.site

-- A page file that is given other bytes, and is not cut.
theorem Shows.leads_withContent (h : Shows dir base s b) (f : Folder) {page : UInt64}
    (hnode : s.1.disk.node? (PageFile.name page :: f.name :: base) = some (.file file))
    (hsize : (s.1.disk.content file).size ≤ c.size) :
    Leads dir base s (withContent s file c) (b.setImage f ((b.image f).set page c.sheet)) := by
  have hserves := h.serves f
  have hrewrites := Disk.rewrites_setContent s.1.disk file c
  have hextends := hrewrites.extends_place h.site.wellFormed.toNumbered hnode hsize
  have himage := hrewrites.image_eq h.site.wellFormed.toNumbered hnode
  rw [hserves.image] at himage
  have hrefills := hrewrites.refills h.site.wellFormed.toNumbered hnode hsize
  exact h.beneath f ⟨rfl, rfl, rfl, hrefills, himage, hserves.sound.copes.of_extends hextends⟩

theorem getElem?_read (c : Content) (position length k : Nat) :
    (c.sheet.read position length)[k]? = if k < length then some (c.byteAt (position + k)) else none := by
  unfold Sheet.read
  rw [List.getElem?_map]
  split
  · next hk => rw [List.getElem?_range' hk, Nat.one_mul]; rfl
  · next hk => rw [List.getElem?_eq_none (by rw [List.length_range']; omega)]; rfl

-- What is read is the same where none of the bytes was changed.
theorem Entry.read_eq (h : ∀ p, e.Covers p → c'.byteAt p = c.byteAt p) :
    c'.sheet.read e.offset.toNat e.length.toNat = c.sheet.read e.offset.toNat e.length.toNat :=
  Content.read_congr fun p hle hlt => h p ⟨hle, hlt⟩

-- A single byte that was replaced.
theorem Entry.Covers.burst_write {p : Nat} {byte : UInt8} (h : e.Covers p) (hne : byte ≠ c.byteAt p) :
    e.Burst c (c.write p [byte]) where
  size := Nat.le_refl _
  changed := by
    refine ⟨p, h, ?_⟩
    rw [Content.byteAt_write, if_pos (Nat.le_refl _), Nat.sub_self]
    exact hne
  within := by
    refine ⟨p, fun q _ hout => ?_⟩
    rw [Content.byteAt_write]
    split
    · rw [List.getElem?_eq_none (by rw [List.length_singleton]; omega), Option.getD_none]
    · rfl

theorem Entry.Burst.ofPayload_ne (h : e.Burst c c') :
    Checksum.ofPayload (c'.sheet.read e.offset.toNat e.length.toNat) ≠
      Checksum.ofPayload (c.sheet.read e.offset.toNat e.length.toNat) := by
  obtain ⟨start, hwithin⟩ := h.within
  obtain ⟨p, ⟨hle, hlt⟩, hchanged⟩ := h.changed
  have hk : p - e.offset.toNat < e.length.toNat := by
    unfold Entry.finish at hlt
    omega
  refine Checksum.ofPayload_ne ?_ (fun hsame => ?_) (start - e.offset.toNat) fun k hout => ?_
  · rw [Sheet.length_read, Sheet.length_read]
  · have hbyte := congrArg (fun bs => bs[p - e.offset.toNat]?) hsame
    simp only [getElem?_read, if_pos hk, Nat.add_sub_of_le hle] at hbyte
    exact hchanged (Option.some.inj hbyte)
  · rw [getElem?_read, getElem?_read]
    split
    · next hin =>
      have hcovers : e.Covers (e.offset.toNat + k) :=
        ⟨Nat.le_add_right _ _, Nat.add_lt_add_left hin _⟩
      rw [hwithin _ hcovers (by omega)]
    · rfl

namespace Books

-- The books with another data page.
def withData (b : Books) (page : UInt64) (c : Content) : Books :=
  b.setImage .data (b.data.set page c.sheet)

theorem entry_withData (b : Books) (page : UInt64) (c : Content) : (b.withData page c).entry = b.entry :=
  rfl

theorem bytes_withData (b : Books) (page : UInt64) (c : Content) (other : UInt64) (position length : Nat) :
    (b.withData page c).data.bytes other position length =
      if other = page then c.sheet.read position length else b.data.bytes other position length := by
  show (b.data.set page c.sheet).bytes other position length = _
  unfold Image.bytes
  rw [Image.sheet_set]
  split <;> rfl

section

variable {page : UInt64} (hpage : b.data page = some c.sheet)

include hpage

theorem fetch_withData_of_burst (hread : b.fetch index = .ok payload)
    (hentry : (b.entry index).dataPage = page) (hburst : (b.entry index).Burst c c') :
    (b.withData page c').fetch index = .error (.corrupted index) := by
  have hbytes : b.data.bytes page (b.entry index).offset.toNat (b.entry index).length.toNat =
      c.sheet.read (b.entry index).offset.toNat (b.entry index).length.toNat := by
    rw [Image.bytes, Image.sheet, hpage, Option.getD_some]
  have hsize : (b.withData page c').dataPageSize = b.dataPageSize := rfl
  simp only [fetch, entry_withData, bytes_withData, hentry, hbytes, if_true, hsize] at hread ⊢
  split at hread
  · next hfinish =>
    split at hread
    · cases hread
    · next hsum =>
      rw [if_pos hfinish, if_pos]
      rw [← not_not.mp hsum]
      exact hburst.ofPayload_ne
  · cases hread

theorem fetch_withData_of_same
    (hsame : (b.entry index).dataPage = page → ∀ p, (b.entry index).Covers p → c'.byteAt p = c.byteAt p) :
    (b.withData page c').fetch index = b.fetch index := by
  have hbytes : (b.withData page c').data.bytes (b.entry index).dataPage (b.entry index).offset.toNat
        (b.entry index).length.toNat =
      b.data.bytes (b.entry index).dataPage (b.entry index).offset.toNat (b.entry index).length.toNat := by
    rw [bytes_withData]
    split
    · next hentry => rw [Entry.read_eq (hsame hentry), Image.bytes, Image.sheet, hentry, hpage, Option.getD_some]
    · rfl
  simp only [fetch, entry_withData, hbytes]
  rfl

end

end Books

theorem Shows.run_fetch (h : Shows dir base s b) (index : UInt64) :
    ((Log.fetch index).run s).1 = b.answer index := by
  obtain ⟨_, hends, -⟩ := h.ends_fetch index
  exact hends.1

theorem Shows.detects (h : Shows dir base s b) (hread : ((Log.fetch index).run s).1 = .ok payload)
    (hentry : ((Log.readEntry index).run s).1 = .ok e)
    (hnode : s.1.disk.node? (PageFile.name e.dataPage :: dataDir :: base) = some (.file file))
    (hburst : e.Burst (s.1.disk.content file) c) :
    Detects s (withContent s file c) index e.dataPage (s.1.disk.content file) c := by
  have hdamaged : Shows dir base (withContent s file c) (b.withData e.dataPage c) :=
    (h.leads_withContent .data hnode hburst.size).shows
  have hpage : b.data e.dataPage = some (s.1.disk.content file).sheet := by
    rw [← h.data.image]
    exact Disk.image_eq_some hnode
  have hentry_eq : ∀ {other e}, ((Log.readEntry other).run s).1 = .ok e → b.entry other = e :=
    fun {other _} he => Except.ok.inj ((h.readEntry other).1.symm.trans he)
  obtain rfl := hentry_eq hentry
  refine ⟨?_, fun other e he hsame => ?_⟩
  · rw [h.run_fetch] at hread
    have hin := Books.contains_of_answer hread
    rw [Books.answer, if_pos hin] at hread
    rw [hdamaged.run_fetch, Books.answer]
    show (if b.contains index then _ else _) = _
    rw [if_pos hin]
    exact Books.fetch_withData_of_burst hpage hread rfl hburst
  · obtain rfl := hentry_eq he
    rw [h.run_fetch, hdamaged.run_fetch, Books.answer, Books.answer, Books.fetch_withData_of_same hpage hsame]
    rfl

theorem Stands.detects (h : Stands dir base s) (hread : ((Log.fetch index).run s).1 = .ok payload)
    (hentry : ((Log.readEntry index).run s).1 = .ok e)
    (hnode : s.1.disk.node? (PageFile.name e.dataPage :: dataDir :: base) = some (.file file))
    (hburst : e.Burst (s.1.disk.content file) c) :
    Detects s (withContent s file c) index e.dataPage (s.1.disk.content file) c := by
  cases h with
  | «open» b h => exact h.detects hread hentry hnode hburst
  | closed h => cases (h.spent.fetch index).1.symm.trans hread

-- What was just appended can be read, and its first byte is in a file where it can be replaced.
theorem Shows.exists_burst_append (hpos : 0 < payload.length)
    (hfits : payload.length ≤ b.dataPageSize) (hle : b.dataPageSize ≤ maxDataPageSize)
    (hin : (b.append payload).contains b.head = true) (h : Shows dir base s (b.append payload)) :
    ∃ e file c, ((Log.fetch b.head).run s).1 = .ok payload ∧ ((Log.readEntry b.head).run s).1 = .ok e ∧
      s.1.disk.node? (PageFile.name e.dataPage :: dataDir :: base) = some (.file file) ∧
      e.Burst (s.1.disk.content file) c := by
  have hfetch : ((Log.fetch b.head).run s).1 = .ok payload := by
    rw [h.run_fetch, Books.answer, if_pos hin, Books.fetch_append_head hfits hle]
  have hentry : ((Log.readEntry b.head).run s).1 = .ok ((b.nextItem payload).entry (timestamp b.now)) := by
    rw [(h.readEntry b.head).1, b.entry_append_head payload]
  have hpage : (b.append payload).data (b.nextItem payload).page = some _ := Image.set_self _ _ _
  rw [← h.data.image] at hpage
  obtain ⟨file, hnode, -⟩ := Disk.exists_file_of_image hpage
  have hmax : (b.nextItem payload).finish ≤ maxDataPageSize :=
    Nat.le_trans (Books.placeFor_offset_add_le hfits) hle
  have hcovers : ((b.nextItem payload).entry (timestamp b.now)).Covers (b.nextItem payload).offset := by
    unfold Entry.Covers Entry.finish
    rw [Item.toNat_offset_entry hmax, Item.toNat_length_entry hmax]
    exact ⟨Nat.le_refl _, Nat.lt_add_of_pos_right hpos⟩
  have hburst := hcovers.burst_write fun hsame :
    (s.1.disk.content file).byteAt (b.nextItem payload).offset + 1 = _ =>
      absurd (UInt8.left_eq_add.mp hsame.symm) (by decide)
  exact ⟨_, file, _, hfetch, hentry, hnode, hburst⟩

end

section

variable {dir : Path} {base : Location}

-- Whatever the directories held and whatever was done before, closing and opening again included.
theorem damage_law (host : Host) (as : List Act) (h : host.disk.Site dir base) {dataPageSize : Nat}
    (hpos : 0 < dataPageSize) (hle : dataPageSize ≤ maxDataPageSize) (policy : CachePolicy) :
    ∃ host' l, (Log.open dir dataPageSize policy).run host = (.ok l, host') ∧
      let s := Step.after (as.map (Act.perform dir)) (host', l)
      ∀ index payload e file c, ((Log.fetch index).run s).1 = .ok payload →
        ((Log.readEntry index).run s).1 = .ok e →
          s.1.disk.node? (PageFile.name e.dataPage :: dataDir :: base) = some (.file file) →
            e.Burst (s.1.disk.content file) c →
              Detects s (withContent s file c) index e.dataPage (s.1.disk.content file) c := by
  obtain ⟨l, b, hopen, -⟩ := ends_open_any h hpos hle policy
  obtain ⟨host', hrun, hshows, -⟩ := hopen.run_eq
  have hstands := (Stands.open b hshows).after as
  exact ⟨host', l, hrun, fun _ _ _ _ _ hread hentry hnode hburst =>
    hstands.detects hread hentry hnode hburst⟩

end

-- An item that was appended loses its first letter.
theorem damage_law_appended : ∃ host' l,
    (Log.open ⟨"spool"⟩ 64 .pinned).run ⟨Disk.empty.addDirectory ["spool"], 0⟩ = (.ok l, host') ∧
    let s := Step.after ([.request (.append [111, 110, 101])].map (Act.perform ⟨"spool"⟩)) (host', l)
    ∃ e file c, ((Log.fetch 0).run s).1 = .ok [111, 110, 101] ∧
      ((Log.readEntry 0).run s).1 = .ok e ∧
      s.1.disk.node? (PageFile.name e.dataPage :: dataDir :: ["spool"]) = some (.file file) ∧
      e.Burst (s.1.disk.content file) c ∧
      Detects s (withContent s file c) 0 e.dataPage (s.1.disk.content file) c := by
  have hvacant : (Host.mk (Disk.empty.addDirectory ["spool"]) 0).disk.Vacant ⟨"spool"⟩ ["spool"] :=
    Disk.vacant_addDirectory (by decide)
  have hstarts := startsAt_zero hvacant
  obtain ⟨host', l, hrun, hlaw⟩ := damage_law _ [.request (.append [111, 110, 101])] hvacant.site
    (by decide : 0 < 64) (by decide) .pinned
  refine ⟨host', l, hrun, ?_⟩
  obtain ⟨l', hopen⟩ := hstarts.open_found (by decide : 0 < 64) (by decide) .pinned
  obtain ⟨host'', hrun', hshows, -⟩ := hopen.run_eq
  obtain ⟨hl, rfl⟩ := Prod.mk.inj (hrun.symm.trans hrun')
  obtain rfl := Except.ok.inj hl
  generalize hb : Books.found 64 ["spool"] ⟨Disk.empty.addDirectory ["spool"], 0⟩ = b at hshows
  have hhead : b.head = 0 := hb ▸ hstarts.head
  have htail : b.tail = 0 := hb ▸ hstarts.tail
  have hsize : b.dataPageSize = 64 := hb ▸ rfl
  have hfits : ([111, 110, 101] : Bytes).length ≤ b.dataPageSize := by
    rw [hsize]
    decide
  have hin : (b.append [111, 110, 101]).contains b.head = true := by
    show decide (b.head - b.tail < b.head + 1 - b.tail) = true
    rw [hhead, htail]
    decide
  have happend := ((hshows.append hfits).map Reply.index).discard.2.shows
  obtain ⟨e, file, c, hfetch, hentry, hnode, hburst⟩ :=
    happend.exists_burst_append (by decide) hfits (by rw [hsize]; decide) hin
  rw [hhead] at hfetch hentry
  exact ⟨e, file, c, hfetch, hentry, hnode, hburst, hlaw _ _ _ _ _ hfetch hentry hnode hburst⟩

end Spool.Log
