import Monopoly.Lib.Checked
import Monopoly.Lib.Paging
import Monopoly.Service.Listing

/-!
# Monopoly.Laws.LobbyPaging

The pages of the lobby: whoever follows the cursors to the end has seen
every open room once, the latest first.
-/

namespace Monopoly.Lobby

variable {isoformat : Int → String} {fromisoformat : String → Py Int}
  {collection rooms front rest : List ListedSession} {limit : Nat} {room : ListedSession}

/-! ## cursors -/

theorem splitAtBar_append {before : String} (hbar : '|' ∉ before.toList) (after : String) :
    splitAtBar (before ++ "|" ++ after) = .ok (before, after) := by
  have hspan : (before ++ "|" ++ after).toList.span (· ≠ '|') =
      (before.toList, '|' :: after.toList) := by
    have hword : ∀ c ∈ before.toList, decide (c ≠ '|') = true := fun c hc =>
      decide_eq_true fun hc' => hbar (hc' ▸ hc)
    simp only [String.toList_append, List.append_assoc, List.span_eq_takeWhile_dropWhile,
      List.takeWhile_append_of_pos hword, List.dropWhile_append_of_pos hword]
    simp
  rw [splitAtBar, hspan]
  simp

/-- `fromisoformat` reads the time of a room back, and the time has no bar in
it. -/
structure ReadsBack (isoformat : Int → String) (fromisoformat : String → Py Int)
    (room : ListedSession) : Prop where
  inverts : fromisoformat (isoformat room.createdAt) = .ok room.createdAt
  noBar : '|' ∉ (isoformat room.createdAt).toList

theorem readCursor_encodeCursor (h : ReadsBack isoformat fromisoformat room) :
    readCursor fromisoformat (some (encodeCursor isoformat room.createdAt room.id)) =
      .ok (some (room.createdAt, room.id)) := by
  have hne : encodeCursor isoformat room.createdAt room.id ≠ "" := by
    intro hempty
    have hchars := congrArg String.toList hempty
    simp [encodeCursor] at hchars
  rw [readCursor, if_neg hne, decodeCursor, encodeCursor, splitAtBar_append h.noBar]
  simp only [ok_bind, h.inverts]
  rfl

/-! ## one page -/

/-- The open rooms, the latest first. -/
def openRooms (collection : List ListedSession) : List ListedSession :=
  pySortedDesc ListedSession.key (collection.filter ListedSession.isOpen)

theorem isBelow_iff {session : ListedSession} :
    session.isBelow room.createdAt room.id = decide (session.key < room.key) := by
  simp [ListedSession.isBelow, ListedSession.key, Prod.Lex.toLex_lt_toLex]

theorem nodup_keys (hids : (collection.map (·.id)).Nodup) :
    (collection.map ListedSession.key).Nodup := by
  refine List.Nodup.of_map (fun k => (ofLex k).2) ?_
  rwa [List.map_map]

theorem openRooms_descending (hids : (collection.map (·.id)).Nodup) :
    Descending ListedSession.key (openRooms collection) :=
  descending_pySortedDesc ((nodup_keys hids).sublist (List.filter_sublist.map _))

/-- The rooms of a call without a cursor. -/
theorem listPublicWaiting_none (collection : List ListedSession) (limit : Nat) :
    listPublicWaiting collection limit none = (openRooms collection).take limit := by
  simp [listPublicWaiting, openRooms]

/-- The rooms of a call with the cursor of a room are those after it. -/
theorem listPublicWaiting_after (hids : (collection.map (·.id)).Nodup)
    (hrooms : openRooms collection = front ++ room :: rest) (limit : Nat) :
    listPublicWaiting collection limit (some (room.createdAt, room.id)) = rest.take limit := by
  have hopen : ((collection.filter ListedSession.isOpen).map ListedSession.key).Nodup :=
    (nodup_keys hids).sublist (List.filter_sublist.map _)
  have hbelow : (collection.filter fun session =>
        session.isOpen && session.isBelow room.createdAt room.id) =
      (collection.filter ListedSession.isOpen).filter
        fun session => decide (session.key < room.key) := by
    rw [List.filter_filter]
    refine List.filter_congr fun session _ => ?_
    rw [isBelow_iff, Bool.and_comm]
  have hdesc := openRooms_descending hids
  show (pySortedDesc ListedSession.key (collection.filter fun session =>
    session.isOpen && session.isBelow room.createdAt room.id)).take limit = _
  rw [hbelow, pySortedDesc_filter hopen]
  show ((openRooms collection).filter _).take limit = _
  rw [hrooms] at hdesc ⊢
  rw [hdesc.filter_below]

/-- Where the cursor stands: at the front, or after a room, with `rows` still
to be listed. -/
def StandsAt (isoformat : Int → String) (collection : List ListedSession) :
    Option String → List ListedSession → Prop
  | none, rows => rows = openRooms collection
  | some cursor, rows => ∃ front room, openRooms collection = front ++ room :: rows ∧
      cursor = encodeCursor isoformat room.createdAt room.id

section Pages

variable {cursor : Option String} {rows : List ListedSession}

/-- Nothing is left out before the cursor. -/
theorem StandsAt.split (h : StandsAt isoformat collection cursor rows) :
    ∃ front, openRooms collection = front ++ rows := by
  cases cursor with
  | none => exact ⟨[], h.symm⟩
  | some cursor =>
      obtain ⟨front, room, hrooms, -⟩ := h
      exact ⟨front ++ [room], by simpa using hrooms⟩

/-- The query finds what is to be listed next. -/
theorem StandsAt.found (hids : (collection.map (·.id)).Nodup)
    (htimes : ∀ room ∈ collection, ReadsBack isoformat fromisoformat room)
    (h : StandsAt isoformat collection cursor rows) (n : Nat) :
    ∃ after, readCursor fromisoformat cursor = .ok after ∧
      listPublicWaiting collection n after = rows.take n := by
  cases cursor with
  | none =>
      obtain rfl : rows = openRooms collection := h
      exact ⟨none, rfl, listPublicWaiting_none collection n⟩
  | some cursor =>
      obtain ⟨front, room, hrooms, rfl⟩ := h
      have hmem : room ∈ openRooms collection := by simp [hrooms]
      have hroom : room ∈ collection := List.mem_of_mem_filter (mem_pySortedDesc.mp hmem)
      exact ⟨_, readCursor_encodeCursor (htimes room hroom),
        listPublicWaiting_after hids hrooms n⟩

/-- A call lists the rest of the rooms, or a full page, with the cursor of
its last room. -/
theorem listPublicLobby_page (hids : (collection.map (·.id)).Nodup)
    (htimes : ∀ room ∈ collection, ReadsBack isoformat fromisoformat room) (hlimit : 1 ≤ limit)
    (h : StandsAt isoformat collection cursor rows) :
    (rows.length ≤ limit ∧ listPublicLobby isoformat fromisoformat collection limit cursor =
      .ok (rows, none)) ∨
    (limit < rows.length ∧ ∃ cursor', listPublicLobby isoformat fromisoformat collection limit
      cursor = .ok (rows.take limit, some cursor') ∧
      StandsAt isoformat collection (some cursor') (rows.drop limit)) := by
  obtain ⟨after, hcursor, hfound⟩ := h.found hids htimes (limit + 1)
  simp only [listPublicLobby, hcursor, ok_bind, hfound, List.length_take]
  by_cases hlong : limit < rows.length
  · refine .inr ⟨hlong, ?_⟩
    have htake : (rows.take (limit + 1)).take limit = rows.take limit := by
      rw [List.take_take, Nat.min_eq_left (by omega)]
    have hne : rows.take limit ≠ [] := by
      rw [← List.length_pos_iff, List.length_take]
      omega
    obtain ⟨earlier, last, hpage⟩ := (List.eq_nil_or_concat' _).resolve_left hne
    have hlast : pyGet (rows.take limit) (-1) = .ok last := by rw [hpage, pyGet_last]
    obtain ⟨front, hfront⟩ := h.split
    refine ⟨encodeCursor isoformat last.createdAt last.id, ?_, front ++ earlier, last, ?_, rfl⟩
    · rw [if_pos (by omega), htake, hlast, ok_bind]
      rfl
    · calc openRooms collection = front ++ (rows.take limit ++ rows.drop limit) := by
            rw [List.take_append_drop, hfront]
        _ = (front ++ earlier) ++ last :: rows.drop limit := by simp [hpage]
  · refine .inl ⟨by omega, ?_⟩
    rw [if_neg (by omega), List.take_of_length_le (by omega)]
    rfl

end Pages

/-! ## the law -/

/-- Whoever follows the cursors from the first call reads every open room
once, the latest first and by full pages, and comes to an end. -/
theorem lobby_paging_complete (hids : (collection.map (·.id)).Nodup)
    (htimes : ∀ room ∈ collection, ReadsBack isoformat fromisoformat room) (hlimit : 1 ≤ limit) :
    ∃ pages, Follows (listPublicLobby isoformat fromisoformat collection limit) none pages ∧
      (∀ pages', Follows (listPublicLobby isoformat fromisoformat collection limit) none pages' →
        pages' = pages) ∧
      pages.flatten.Perm (collection.filter ListedSession.isOpen) ∧
      (pages.flatten.Pairwise fun a b =>
        b.createdAt < a.createdAt ∨ b.createdAt = a.createdAt ∧ b.id < a.id) ∧
      (∀ page ∈ pages.dropLast, page.length = limit) ∧
      ∀ page ∈ pages.getLast?, page.length ≤ limit := by
  obtain ⟨pages, hfollows, hpages⟩ := exists_follows hlimit (StandsAt isoformat collection)
    (fun _ _ hat => listPublicLobby_page hids htimes hlimit hat)
    (show StandsAt isoformat collection none (openRooms collection) from rfl)
  refine ⟨pages, hfollows, fun pages' h => h.unique hfollows, ?_, ?_, hpages.full, hpages.last⟩
  · rw [hpages.flatten]
    exact pySortedDesc_perm _ _
  · rw [hpages.flatten]
    refine (openRooms_descending hids).imp fun hlt => ?_
    simpa [ListedSession.key, Prod.Lex.toLex_lt_toLex] using hlt

/-- The first two seconds of a year, as `isoformat` writes them. -/
def newYearIso (createdAt : Int) : String :=
  if createdAt = 1767225600000 then "2026-01-01T00:00:00" else "2026-01-01T00:00:01"

def newYearFromIso (s : String) : Py Int :=
  if s = "2026-01-01T00:00:00" then .ok 1767225600000
  else if s = "2026-01-01T00:00:01" then .ok 1767225601000
  else .error .valueError

/-- Three open rooms, two of them of the same second, and a private one. -/
def newYearRooms : List ListedSession :=
  [⟨"3f", .waiting, .publicRoom, 1767225600000⟩, ⟨"a7", .waiting, .publicRoom, 1767225601000⟩,
    ⟨"b2", .waiting, .privateRoom, 1767225601000⟩, ⟨"c0", .waiting, .publicRoom, 1767225600000⟩]

/-- The page boundary falls between the two rooms of the same second. -/
theorem lobby_paging_new_year : ∃ pages,
    Follows (listPublicLobby newYearIso newYearFromIso newYearRooms 2) none pages ∧
      pages.flatten.Perm (newYearRooms.filter ListedSession.isOpen) ∧
      pages.map (·.map (·.id)) = [["a7", "c0"], ["3f"]] := by
  have hids : (newYearRooms.map (·.id)).Nodup := by decide
  have htimes : ∀ room ∈ newYearRooms, ReadsBack newYearIso newYearFromIso room := by
    intro room hroom
    simp only [newYearRooms, List.mem_cons, List.not_mem_nil, or_false] at hroom
    rcases hroom with rfl | rfl | rfl | rfl <;> exact ⟨by decide, by decide⟩
  obtain ⟨pages, hfollows, honly, hperm, -⟩ :=
    lobby_paging_complete hids htimes (show 1 ≤ 2 by decide)
  have hfirst : listPublicLobby newYearIso newYearFromIso newYearRooms 2 none =
      .ok ([⟨"a7", .waiting, .publicRoom, 1767225601000⟩,
        ⟨"c0", .waiting, .publicRoom, 1767225600000⟩], some "2026-01-01T00:00:00|c0") := by
    decide +kernel
  have hsecond : listPublicLobby newYearIso newYearFromIso newYearRooms 2
      (some "2026-01-01T00:00:00|c0") =
        .ok ([⟨"3f", .waiting, .publicRoom, 1767225600000⟩], none) := by
    decide +kernel
  have hread := Follows.next hfirst (.last hsecond)
  obtain rfl := honly _ hread
  exact ⟨_, hfollows, hperm, rfl⟩

end Monopoly.Lobby
