import Spool.Proofs.Log.Reading

namespace Spool.Log

inductive Request where
  | append (payload : Bytes)
  | fetch (index : UInt64)
  | timestampOf (index : UInt64)
  | removeAll
  | removeBefore (index : UInt64)
  | dataPages
  | diskUsage
  | flush

inductive Reply where
  | done
  | index (i : UInt64)
  | payload (bs : Bytes)
  | time (t : Int64)
  | pages (pages : List UInt64)
  | bytes (n : Nat)

-- What is looked up on the disk and in the log without a change to either.
def look (read : Host × Log → Except Error α) : Action α := do
  Step.ofExcept (read (← get))

def Request.perform : Request → Action Reply
  | append payload => return .index (← Log.append payload)
  | fetch index => return .payload (← Log.fetch index)
  | timestampOf index => return .time (← Log.timestampOf index)
  | removeAll => do
    Log.removeAll
    return .done
  | removeBefore index => do
    Log.removeBefore index
    return .done
  | dataPages => return .pages (← look fun s => s.2.dataPages s.1.disk)
  | diskUsage => return .bytes (← look fun s => s.2.diskUsage s.1.disk)
  | flush => do
    Log.flush
    return .done

section

variable {dir : Path} {base : Location} {s : Host × Log} {b : Books} {index : UInt64}

theorem ends_look (read : Host × Log → Except Error α) (s : Host × Log) :
    Step.Ends (look read) s (read s) (· = s) :=
  Step.ends_get_bind (Step.ends_ofExcept rfl)

theorem Faces.timestampOf (h : Faces base s b) (hin : b.contains index = true)
    (hgrant : grant base s .index (Entry.pageOf index) = .ok ()) :
    Step.Ends (Log.timestampOf index) s (.ok (b.entry index).timestamp) fun t =>
      Goes base s t (b.lookUp index) :=
  ends_checked (h.checkIndex_eq_ok hin) ((h.readEntry hgrant).map Entry.timestamp)

theorem Faces.timestampOf_outOfRange (h : Faces base s b) (hout : b.contains index = false) :
    Step.Ends (Log.timestampOf index) s (.error (.outOfRange index b.tail b.head)) (· = s) :=
  ends_checked_error (h.checkIndex_eq_error hout) _

theorem Shows.timestampOf (h : Shows dir base s b) (hin : b.contains index = true) :
    Step.Ends (Log.timestampOf index) s (.ok (b.entry index).timestamp) fun t =>
      Leads dir base s t (b.lookUp index) :=
  h.leads_of_faces fun hfaces =>
    (hfaces.timestampOf hin (h.grant_eq_ok .index _)).mono fun _ ht => ht.toMoves

theorem Shows.timestampOf_outOfRange (h : Shows dir base s b) (hout : b.contains index = false) :
    Step.Ends (Log.timestampOf index) s (.error (.outOfRange index b.tail b.head)) (· = s) :=
  h.faces.timestampOf_outOfRange hout

-- A call that is refused at once leaves the books as they are.
private theorem Shows.leads_of_eq {x : Action α} {r : Except Error α} (h : Shows dir base s b)
    (hends : Step.Ends x s r (· = s)) : ∃ r b', Step.Ends x s r fun t => Leads dir base s t b' := by
  refine ⟨r, b, hends.mono ?_⟩
  rintro _ rfl
  exact h.leads

private theorem exists_map {x : Action α} (f : α → β)
    (h : ∃ r b', Step.Ends x s r fun t => Leads dir base s t b') :
    ∃ r b', Step.Ends (x >>= fun a => pure (f a)) s r fun t => Leads dir base s t b' := by
  obtain ⟨r, b', hends⟩ := h
  exact ⟨_, b', hends.map f⟩

theorem Shows.request (h : Shows dir base s b) (r : Request) :
    ∃ reply b', Step.Ends r.perform s reply fun t => Leads dir base s t b' := by
  cases r with
  | append payload =>
      refine exists_map _ ?_
      by_cases hfits : payload.length ≤ b.dataPageSize
      · exact ⟨_, _, h.append hfits⟩
      · exact h.leads_of_eq (h.append_tooLarge (Nat.lt_of_not_le hfits))
  | fetch index =>
      obtain ⟨b', hends, -⟩ := h.ends_fetch index
      exact ⟨_, b', hends.map Reply.payload⟩
  | timestampOf index =>
      refine exists_map _ ?_
      cases hin : b.contains index with
      | true => exact ⟨_, _, h.timestampOf hin⟩
      | false => exact h.leads_of_eq (h.timestampOf_outOfRange hin)
  | removeAll => exact ⟨_, _, h.removeAll.map _⟩
  | removeBefore index =>
      refine exists_map (fun _ => Reply.done) ?_
      cases hin : b.contains index with
      | true => exact ⟨_, _, h.removeBefore hin⟩
      | false => exact h.leads_of_eq (h.removeBefore_outOfRange hin)
  | dataPages => exact exists_map _ (h.leads_of_eq (ends_look _ s))
  | diskUsage => exact exists_map _ (h.leads_of_eq (ends_look _ s))
  | flush => exact ⟨_, b, h.flush.map fun _ => Reply.done⟩

end

end Spool.Log
