import Spool.Proofs.Log.Keeping

namespace Spool.Log

-- A directory that a log starts from at some index: counters that say so, and no payloads.
structure StartsAt (d : Disk) (dir : Path) (base : Location) (start : UInt64) : Prop where
  site : d.Site dir base
  head : (d.image (endsDir :: base)).word endsPage headPosition = start
  tail : (d.image (endsDir :: base)).word endsPage tailPosition = start
  noPages : ∀ page, d.image (dataDir :: base) page = none

def Holds (dir : Path) (base : Location) (s : Host × Log) (g : Ledger) : Prop :=
  ∃ b, Shows dir base s b ∧ b.Keeps g

-- What comes of a step of a log: its ledger, and nothing outside of the log has changed.
structure Turns (dir : Path) (base : Location) (s t : Host × Log) (g : Ledger) : Prop where
  holds : Holds dir base t g
  frame : Disk.Frame (base :: folders base) s.1.disk t.1.disk

section

variable {dir : Path} {base : Location} {s t u : Host × Log} {b : Books} {g g' : Ledger}
  {index : UInt64} {payload : Bytes}

theorem Leads.turns (h : Leads dir base s t b) (hkeeps : b.Keeps g) : Turns dir base s t g :=
  ⟨⟨b, h.shows, hkeeps⟩, h.frame.mono (List.subset_cons_self _ _)⟩

theorem Holds.turns (h : Holds dir base s g) : Turns dir base s s g :=
  ⟨h, Disk.Frame.refl _ _⟩

theorem Holds.lawful (h : Holds dir base s g) : g.Lawful := by
  obtain ⟨b, -, hkeeps⟩ := h
  exact hkeeps.lawful

theorem Holds.head_eq (h : Holds dir base s g) : s.2.head = g.head := by
  obtain ⟨b, hshows, hkeeps⟩ := h
  exact hshows.head.trans hkeeps.head

theorem Holds.tail_eq (h : Holds dir base s g) : s.2.tail = g.tail := by
  obtain ⟨b, hshows, hkeeps⟩ := h
  exact hshows.tail.trans hkeeps.tail

theorem Holds.site (h : Holds dir base s g) : s.1.disk.Site dir base := by
  obtain ⟨b, hshows, -⟩ := h
  exact hshows.site

theorem Holds.of_frame {host : Host} {places : List Location} (h : Holds dir base s g)
    (hframe : Disk.Frame places s.1.disk host.disk) (hsite : host.disk.Site dir base)
    (hapart : ∀ folder ∈ folders base, folder ∉ places) : Holds dir base (host, s.2) g := by
  obtain ⟨b, hshows, hkeeps⟩ := h
  exact ⟨_, hshows.of_frame hframe hsite hapart, hkeeps.setNow host.now⟩

theorem Holds.append (h : Holds dir base s g) (hfits : payload.length ≤ g.pageSize)
    (hshort : g.items.length + 1 < UInt64.size) (hpages : g.cursor.page.toNat + 1 < UInt64.size) :
    Step.Ends (Log.append payload) s (.ok g.head) fun t => Turns dir base s t (g.append payload) := by
  obtain ⟨b, hshows, hkeeps⟩ := h
  have happend := hshows.append (hkeeps.dataPageSize.symm ▸ hfits)
  rw [hkeeps.head] at happend
  exact happend.mono fun t ht => ht.turns (hkeeps.append hfits hshort hpages)

theorem Holds.append_tooLarge (h : Holds dir base s g) (hlong : g.pageSize < payload.length) :
    Step.Ends (Log.append payload) s (.error (.itemTooLarge payload.length g.pageSize)) (· = s) := by
  obtain ⟨b, hshows, hkeeps⟩ := h
  rw [← hkeeps.dataPageSize] at hlong ⊢
  exact hshows.append_tooLarge hlong

private theorem Holds.not_contains {b : Books} (hkeeps : b.Keeps g)
    (hout : ¬(index - g.tail).toNat < g.items.length) : b.contains index = false := by
  rw [← Bool.not_eq_true, hkeeps.contains_iff]
  exact hout

theorem Holds.fetch_outOfRange (h : Holds dir base s g)
    (hout : ¬(index - g.tail).toNat < g.items.length) :
    Step.Ends (Log.fetch index) s (.error (.outOfRange index g.tail g.head)) (· = s) := by
  obtain ⟨b, hshows, hkeeps⟩ := h
  rw [← hkeeps.tail, ← hkeeps.head]
  exact hshows.fetch_outOfRange (Holds.not_contains hkeeps hout)

theorem Holds.fetch (h : Holds dir base s g) (index : UInt64) :
    Step.Ends (Log.fetch index) s (g.fetch index) fun t => Turns dir base s t g := by
  cases hitem : g.item? index with
  | none =>
      have hout : ¬(index - g.tail).toNat < g.items.length :=
        Nat.not_lt.mpr (List.getElem?_eq_none_iff.mp hitem)
      rw [Ledger.fetch, hitem]
      refine (h.fetch_outOfRange hout).mono ?_
      rintro _ rfl
      exact h.turns
  | some x =>
      obtain ⟨b, hshows, hkeeps⟩ := h
      have hin := (hkeeps.contains_iff index).mpr (Ledger.lt_length hitem)
      rw [← hkeeps.fetch_eq hitem]
      exact (hshows.fetch hin).mono fun t ht => ht.turns (hkeeps.visit hitem)

theorem Holds.removeBefore (h : Holds dir base s g)
    (hin : (index - g.tail).toNat < g.items.length) :
    Step.Ends (Log.removeBefore index) s (.ok ()) fun t =>
      Turns dir base s t (g.removeBefore index) := by
  obtain ⟨b, hshows, hkeeps⟩ := h
  have hitem : g.item? index = some g.items[(index - g.tail).toNat] := List.getElem?_eq_getElem hin
  have hremove := hshows.removeBefore ((hkeeps.contains_iff index).mpr hin)
  exact hremove.mono fun t ht => ht.turns (hkeeps.removeBefore hitem)

theorem Holds.removeBefore_outOfRange (h : Holds dir base s g)
    (hout : ¬(index - g.tail).toNat < g.items.length) :
    Step.Ends (Log.removeBefore index) s (.error (.outOfRange index g.tail g.head)) (· = s) := by
  obtain ⟨b, hshows, hkeeps⟩ := h
  rw [← hkeeps.tail, ← hkeeps.head]
  exact hshows.removeBefore_outOfRange (Holds.not_contains hkeeps hout)

theorem Holds.removeAll (h : Holds dir base s g) :
    Step.Ends Log.removeAll s (.ok ()) fun t => Turns dir base s t g.removeAll := by
  obtain ⟨b, hshows, hkeeps⟩ := h
  exact hshows.removeAll.mono fun t ht => ht.turns hkeeps.removeAll

theorem Holds.flush (h : Holds dir base s g) :
    Step.Ends Log.flush s (.ok ()) fun t => Turns dir base s t g := by
  obtain ⟨b, hshows, hkeeps⟩ := h
  exact hshows.flush.mono fun t ht => ht.turns hkeeps

theorem Holds.sweep (h : Holds dir base s g) (now : Nat) :
    Turns dir base s ({ s.1 with now }, s.2.sweep now) g := by
  obtain ⟨b, hshows, hkeeps⟩ := h
  exact (hshows.sweep now).turns (hkeeps.setNow now)

section Open

variable {pageSize : Nat} (hpos : 0 < pageSize) (hle : pageSize ≤ maxDataPageSize)
  (policy : CachePolicy)

include hpos hle

-- What a log that is opened again finds is what the books say, with the page of the counters mapped, and
-- that of the last entry if there is one.
theorem Shows.reopen (h : Shows dir base s b) (hkeeps : b.Keeps g)
    (hintact : ∀ {k : Nat} {x : Item}, g.items[k]? = some x → x.lost = false) :
    ∃ l b', Step.Ends (Log.open dir pageSize policy) s.1 (.ok l) (fun host =>
        Shows dir base (host, l) b' ∧ Disk.Frame (base :: folders base) s.1.disk host.disk) ∧
      b'.Keeps { g with pageSize } ∧
      (b' = { b.refound pageSize s.1.now with cursor := ⟨0, 0⟩ } ∨
        g.items ≠ [] ∧ b' = (b.refound pageSize s.1.now).resume) := by
  have hfound : Books.found pageSize base s.1 = b.refound pageSize s.1.now := by
    rw [Books.found, h.index.image, h.data.image, h.ends.image]
    rfl
  by_cases hnil : g.items = []
  · have hsame := (hkeeps.refound_head_eq_tail_iff pageSize s.1.now).mpr hnil
    have hnone : ∀ page, s.1.disk.image (dataDir :: base) page = none := by
      rw [h.data.image]
      exact hkeeps.noPages hnil
    have hempty := hkeeps.refound_empty hnil hpos hle s.1.now
    have hcursor : b.refound pageSize s.1.now =
        { b.refound pageSize s.1.now with cursor := ⟨0, 0⟩ } := rfl
    obtain ⟨l, hopen⟩ := ends_open_empty h.site hpos hle policy (hfound ▸ hsame) hnone
    exact ⟨l, _, hopen, hfound ▸ hempty, .inl (hfound.trans hcursor)⟩
  · have hdiff := mt (hkeeps.refound_head_eq_tail_iff pageSize s.1.now).mp hnil
    have hlast : g.items[g.items.length - 1]? = some (g.items.getLast hnil) := by
      rw [List.getLast_eq_getElem]
      exact List.getElem?_eq_getElem _
    have hresume := hkeeps.refound_resume hlast (hintact hlast) hpos hle s.1.now
    obtain ⟨l, hopen⟩ := ends_open_window h.site hpos hle policy (hfound ▸ hdiff)
    exact ⟨l, _, hopen, hfound ▸ hresume, .inr ⟨hnil, congrArg Books.resume hfound⟩⟩

-- A log that is opened again on its files takes up where it was.
theorem Holds.reopen (h : Holds dir base s g)
    (hintact : ∀ {k : Nat} {x : Item}, g.items[k]? = some x → x.lost = false) :
    ∃ l, Step.Ends (Log.open dir pageSize policy) s.1 (.ok l) fun host =>
      Turns dir base s (host, l) { g with pageSize } := by
  obtain ⟨b, hshows, hkeeps⟩ := h
  obtain ⟨l, b', hopen, hkeeps', -⟩ := hshows.reopen hpos hle policy hkeeps hintact
  exact ⟨l, hopen.mono fun host ht => ⟨⟨b', ht.1, hkeeps'⟩, ht.2⟩⟩

-- What is found at a start keeps an empty window.
theorem StartsAt.keeps {host : Host} {start : UInt64} (h : StartsAt host.disk dir base start) :
    (Books.found pageSize base host).Keeps (.start pageSize start) := by
  have hhead : (Books.found pageSize base host).head = start := h.head
  have htail : (Books.found pageSize base host).tail = start := h.tail
  have hstart : start + UInt64.ofNat 0 = start := UInt64.add_zero start
  exact {
    lawful := Ledger.lawful_start hpos hle start
    dataPageSize := rfl
    head := hhead.trans hstart.symm
    tail := htail
    cursor := rfl
    headWord := (Image.word_touch _ _ _ _ _).trans (h.head.trans hstart.symm)
    tailWord := (Image.word_touch _ _ _ _ _).trans h.tail
    slots := fun hk => by cases hk
    covered := fun hk => by cases hk
    payloads := fun hk => by cases hk
    noPages := fun _ => h.noPages }

theorem StartsAt.open_found {host : Host} {start : UInt64} (h : StartsAt host.disk dir base start) :
    ∃ l, Step.Ends (Log.open dir pageSize policy) host (.ok l) fun host' =>
      Shows dir base (host', l) (Books.found pageSize base host) ∧
        Disk.Frame (base :: folders base) host.disk host'.disk :=
  ends_open_empty h.site hpos hle policy (h.head.trans h.tail.symm) h.noPages

theorem StartsAt.open {host : Host} {start : UInt64} (h : StartsAt host.disk dir base start) :
    ∃ l, Step.Ends (Log.open dir pageSize policy) host (.ok l) fun host' =>
      Holds dir base (host', l) (.start pageSize start) ∧
        Disk.Frame (base :: folders base) host.disk host'.disk := by
  obtain ⟨l, hopen⟩ := h.open_found hpos hle policy
  exact ⟨l, hopen.mono fun host' ht => ⟨⟨_, ht.1, h.keeps hpos hle⟩, ht.2⟩⟩

end Open

end

-- An empty directory is a start at zero.
theorem startsAt_zero {d : Disk} {dir : Path} {base : Location} (h : d.Vacant dir base) :
    StartsAt d dir base 0 := by
  have hnone := h.image_eq_none endsDir endsPage
  exact ⟨h.site, Image.word_of_none hnone _, Image.word_of_none hnone _, h.image_eq_none dataDir⟩

end Spool.Log
