import Spool.Proofs.Log.Run

namespace Spool.Log

-- Every retained item that can be read from an index on is still there when those in front of the index
-- are gone.
def KeepsBehind (s : Host × Log) (index : UInt64) : Prop :=
  ((Log.removeBefore index).run s).1 = .ok () →
    ∀ j payload, j - index < s.2.head - index → ((Log.fetch j).run s).1 = .ok payload →
      ((Log.fetch j).run ((Log.removeBefore index).run s).2).1 = .ok payload

-- What becomes of each of these items: it stays unless its entry is on a page with a smaller number.
structure Reclaims (s : Host × Log) (index : UInt64) : Prop where
  removed : ((Log.removeBefore index).run s).1 = .ok ()
  fetch : ∀ j payload, j - index < s.2.head - index → ((Log.fetch j).run s).1 = .ok payload →
    ((Log.fetch j).run ((Log.removeBefore index).run s).2).1 =
      if Entry.pageOf j < Entry.pageOf index then .error (.corrupted j) else .ok payload

namespace Ledger

section

variable {g : Ledger} {index j : UInt64} {payload : Bytes}

-- The indexes from one of the window on are those that stay in the window.
theorem item?_removeBefore (h : g.Lawful) (hin : (index - g.tail).toNat < g.items.length)
    (hj : j - index < g.head - index) :
    (g.removeBefore index).item? j =
      (g.item? j).map fun x => { x with lost := x.lost || isDropped index j } := by
  have hshort := h.short
  have hhead := head_removeBefore hin
  have hlt : (j - index).toNat < (g.removeBefore index).items.length :=
    (lt_window_iff (h.removeBefore hin) j).mp (hhead.symm ▸ hj)
  rw [length_removeBefore] at hlt
  have hplace : g.tail + UInt64.ofNat ((index - g.tail).toNat + (j - index).toNat) = j := by
    rw [← Circle.add_ofNat_add, Circle.ofNat_sub_toNat, Circle.ofNat_sub_toNat]
  have hoffset : (j - g.tail).toNat = (index - g.tail).toNat + (j - index).toNat := by
    have hback := Circle.toNat_add_ofNat_sub g.tail
      (k := (index - g.tail).toNat + (j - index).toNat) (by omega)
    rwa [hplace] at hback
  show (g.removeBefore index).items[(j - index).toNat]? = _
  rw [getElem?_removeBefore, Circle.ofNat_sub_toNat, item?, hoffset]

theorem exists_of_fetch (h : g.fetch j = .ok payload) :
    ∃ x, g.item? j = some x ∧ x.lost = false ∧ x.finish ≤ g.pageSize ∧ x.payload = payload := by
  unfold fetch at h
  cases hx : g.item? j with
  | none =>
      rw [hx] at h
      cases h
  | some x =>
      have hread : (if x.lost = true then Except.error (Error.corrupted j)
          else if x.finish ≤ g.pageSize then .ok x.payload
          else .error (Error.outOfBounds x.page x.offset x.payload.length g.pageSize)) = .ok payload := by
        rwa [hx] at h
      split at hread
      · cases hread
      · next hlost =>
        split at hread
        · next hfits => exact ⟨x, rfl, Bool.not_eq_true _ ▸ hlost, hfits, Except.ok.inj hread⟩
        · cases hread

-- An item that could be read is lost with the page of its entry, or read as before.
theorem fetch_removeBefore (h : g.Lawful) (hin : (index - g.tail).toNat < g.items.length)
    (hj : j - index < g.head - index) (hfetch : g.fetch j = .ok payload) :
    (g.removeBefore index).fetch j =
      if Entry.pageOf j < Entry.pageOf index then .error (.corrupted j) else .ok payload := by
  obtain ⟨x, hx, hlost, hfits, rfl⟩ := exists_of_fetch hfetch
  have hitem := item?_removeBefore h hin hj
  rw [hx, Option.map_some, hlost, Bool.false_or] at hitem
  rw [fetch, hitem]
  show (if isDropped index j = true then _ else if x.finish ≤ g.pageSize then _ else _) = _
  rw [if_pos hfits]
  simp only [isDropped, decide_eq_true_eq]

end

end Ledger

-- The counters of a window in which nothing is.
def startingEnds (start : UInt64) : Content :=
  let word := LittleEndian.encode Page.counterSize start.toNat
  ((Content.empty.growTo endsPageSize).write headPosition word).write tailPosition word

theorem word_startingEnds (start : UInt64) {position : Nat}
    (h : position = headPosition ∨ position = tailPosition) :
    (startingEnds start).sheet.word position = start := by
  have hsheet : (startingEnds start).sheet =
      ((Sheet.blank.growTo endsPageSize).setWord headPosition start).setWord tailPosition start := by
    rw [startingEnds, Content.sheet_write, Content.sheet_write, Content.sheet_growTo,
      Content.sheet_empty]
    rfl
  rw [hsheet]
  rcases h with rfl | rfl
  · rw [Sheet.word_setWord_of_disjoint _ _ (by decide), Sheet.word_setWord]
  · exact Sheet.word_setWord _ _ _

-- An empty directory with no more than the counters of a window that starts at some index.
def seeded (d : Disk) (base : Location) (start : UInt64) : Disk :=
  (d.addDirectory (endsDir :: base)).addPage (endsDir :: base) endsPage (startingEnds start)

theorem startsAt_seeded {d : Disk} {dir : Path} {base : Location} (h : d.Vacant dir base)
    (start : UInt64) : StartsAt (seeded d base start) dir base start := by
  have hframe := Disk.frame_addDirectory d endsDir base
  have hsite := h.site.addDirectory endsDir
  have hnone : (d.addDirectory (endsDir :: base)).node?
      (PageFile.name endsPage :: endsDir :: base) = none := by
    rw [hframe.nodes _ _ (by simp)]
    exact h.nothing [_, _] (List.cons_ne_nil _ _)
  have hextends := Disk.extends_addPage hsite.wellFormed.toNumbered hnone (startingEnds start)
  have himage := Disk.image_addPage hsite.wellFormed.toNumbered hnone (startingEnds start)
  have hword : ∀ {position : Nat}, position = headPosition ∨ position = tailPosition →
      ((seeded d base start).image (endsDir :: base)).word endsPage position = start := by
    intro position hposition
    rw [seeded, himage, Image.word, Image.sheet_set, if_pos rfl, word_startingEnds start hposition]
  refine ⟨hsite.of_frame hextends.toFrame (hextends.folder (hsite.parts endsDir)), hword (.inl rfl),
    hword (.inr rfl), fun page => ?_⟩
  rw [seeded, hextends.toFrame.image_eq (by simp [dataDir, endsDir]), hframe.image_eq (by simp)]
  exact h.image_eq_none dataDir page

section

variable {dir : Path} {base : Location} {s : Host × Log} {g : Ledger} {index : UInt64}

theorem Holds.reclaims (h : Holds dir base s g) (hin : s.2.contains index = true) :
    Reclaims s index := by
  have hlength : (index - g.tail).toNat < g.items.length := by
    rw [contains_iff, h.tail_eq, h.head_eq] at hin
    exact (Ledger.lt_window_iff h.lawful index).mp hin
  have hremove := h.removeBefore hlength
  refine ⟨hremove.1, fun j payload hj hfetch => ?_⟩
  rw [h.head_eq] at hj
  rw [(h.fetch j).1] at hfetch
  rw [(hremove.2.holds.fetch j).1]
  exact Ledger.fetch_removeBefore h.lawful hlength hj hfetch

end

-- Three items around the turn of the circle: the second is still there, and the third is lost.
theorem not_keepsBehind_turn : ∃ host' l,
    (Log.open ⟨"spool"⟩ 64 .pinned).run
        ⟨seeded (Disk.empty.addDirectory ["spool"]) ["spool"] 18446744073709551614, 0⟩ =
      (.ok l, host') ∧
    let s := Step.after ([.append [1], .append [2], .append [3]].map Op.perform) (host', l)
    s.2.contains 18446744073709551615 = true ∧ ¬KeepsBehind s 18446744073709551615 := by
  have hstarts : StartsAt (Host.mk (seeded (Disk.empty.addDirectory ["spool"]) ["spool"]
      18446744073709551614) 0).disk ⟨"spool"⟩ ["spool"] 18446744073709551614 :=
    startsAt_seeded (Disk.vacant_addDirectory (by decide)) _
  obtain ⟨l, hopen⟩ := hstarts.open (by decide : 0 < 64) (by decide) .pinned
  obtain ⟨host', hrun, hstart, -⟩ := hopen.run_eq
  have hafter := (hstart.after_ops [.append [1], .append [2], .append [3]]
    (Ledger.Within.start _ _ 0) (by decide)).1
  have hin : (Step.after ([.append [1], .append [2], .append [3]].map Op.perform) (host', l)).2.contains
      18446744073709551615 = true := by
    rw [contains_iff, hafter.tail_eq, hafter.head_eq]
    decide
  refine ⟨host', l, hrun, hin, fun hkeeps => ?_⟩
  have hreclaims := hafter.reclaims hin
  have hbehind : (0 : UInt64) - 18446744073709551615 <
      (Step.after ([.append [1], .append [2], .append [3]].map Op.perform) (host', l)).2.head -
        18446744073709551615 := by
    rw [hafter.head_eq]
    decide
  have hfetch := (hafter.fetch 0).1
  have hkept := hkeeps hreclaims.removed 0 [3] hbehind hfetch
  rw [hreclaims.fetch 0 [3] hbehind hfetch] at hkept
  cases hkept

end Spool.Log
