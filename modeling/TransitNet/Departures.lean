import TransitNet.Network

/-! What `search_timetable` finds. The loop stops before the last entry of the table. -/
namespace TransitNet

variable {unset : Text → ℤ}

/-- The entry goes to the station, and departs no earlier than asked. -/
def TIMETABLE.Suits (unset : Text → ℤ) (starting_time station_to_go : Text) (e : TIMETABLE) : Prop :=
  timeToMinutes unset starting_time ≤ timeToMinutes unset e.departure_time ∧
    e.arrival_station = station_to_go

/-- The index is that of the first entry that suits. -/
def FirstSuits (unset : Text → ℤ) (starting_time station_to_go : Text) (entries : List TIMETABLE) (i : ℕ) :
    Prop :=
  (∃ e, entries[i]? = some e ∧ e.Suits unset starting_time station_to_go) ∧
    ∀ j < i, ∀ e, entries[j]? = some e → ¬ e.Suits unset starting_time station_to_go

/-- The search returns the first entry that suits, and -1 if there is none. The table
has room behind its entries. -/
def SearchIsExact (unset : Text → ℤ) (entries spare : List TIMETABLE) (starting_time station_to_go : Text) :
    Prop :=
  (∀ i : ℕ, search_timetable unset (entries ++ spare) entries.length starting_time station_to_go = i ↔
    FirstSuits unset starting_time station_to_go entries i) ∧
  (search_timetable unset (entries ++ spare) entries.length starting_time station_to_go = -1 ↔
    ∀ e ∈ entries, ¬ e.Suits unset starting_time station_to_go)

theorem boards_suits {starting_time station_to_go : Text} {e : TIMETABLE} :
    boards unset starting_time station_to_go e = true ↔ e.Suits unset starting_time station_to_go := by
  rw [boards_iff, TIMETABLE.Suits, eq_comm]

section Search
variable {entries : List TIMETABLE} {starting_time station_to_go : Text}

/-- A search of the entries in front of the last one. -/
theorem search_cases (spare : List TIMETABLE) :
    (search_timetable unset (entries ++ spare) entries.length starting_time station_to_go = -1 ∧
      ∀ e ∈ entries.dropLast, ¬ e.Suits unset starting_time station_to_go) ∨
    ∃ i : ℕ, search_timetable unset (entries ++ spare) entries.length starting_time station_to_go = i ∧
      i < entries.length - 1 ∧ FirstSuits unset starting_time station_to_go entries i := by
  have front : (entries ++ spare).take (entries.length - 1) = entries.dropLast := by
    rw [List.take_append_of_le_length (Nat.sub_le _ 1), List.dropLast_eq_take]
  rw [search_timetable, front]
  cases found : entries.dropLast.findIdx? (boards unset starting_time station_to_go) with
  | none =>
      left
      refine ⟨rfl, fun e member suits => ?_⟩
      have missed := List.findIdx?_eq_none_iff.mp found e member
      rw [boards_suits.mpr suits] at missed
      cases missed
  | some i =>
      right
      obtain ⟨bound, hit, before⟩ := List.findIdx?_eq_some_iff_getElem.mp found
      rw [List.length_dropLast] at bound
      rw [List.getElem_dropLast] at hit
      refine ⟨i, rfl, bound, ⟨entries[i], List.getElem?_eq_getElem (by omega), boards_suits.mp hit⟩, ?_⟩
      intro j earlier e there suits
      have missed := before j earlier
      obtain ⟨_, same⟩ := List.getElem?_eq_some_iff.mp there
      rw [List.getElem_dropLast, same, boards_suits.mpr suits] at missed
      exact absurd rfl missed

theorem FirstSuits.unique {i j : ℕ} (hi : FirstSuits unset starting_time station_to_go entries i)
    (hj : FirstSuits unset starting_time station_to_go entries j) : i = j := by
  obtain ⟨⟨e, here, suits⟩, before⟩ := hi
  obtain ⟨⟨e', here', suits'⟩, before'⟩ := hj
  rcases Nat.lt_trichotomy i j with less | same | more
  · exact absurd suits (before' i less e here)
  · exact same
  · exact absurd suits' (before j more e' here')

theorem mem_of_dropLast_or_last {e : TIMETABLE} (member : e ∈ entries) :
    e ∈ entries.dropLast ∨ entries.getLast? = some e := by
  induction entries using List.reverseRecOn with
  | nil => exact absurd member List.not_mem_nil
  | append_singleton front last _ =>
      rw [List.dropLast_concat, List.getLast?_concat]
      rcases List.mem_append.mp member with inside | only
      · exact .inl inside
      · exact .inr (congrArg some (List.mem_singleton.mp only).symm)

/-- The search is exact unless the last entry suits and no other does. -/
theorem search_is_exact_iff (unset : Text → ℤ) (entries spare : List TIMETABLE)
    (starting_time station_to_go : Text) :
    SearchIsExact unset entries spare starting_time station_to_go ↔
      ∀ last, entries.getLast? = some last → last.Suits unset starting_time station_to_go →
        ∃ e ∈ entries.dropLast, e.Suits unset starting_time station_to_go := by
  rcases @search_cases unset entries starting_time station_to_go spare with ⟨miss, nobody⟩ | ⟨i, hit, bound, first⟩
  · constructor
    · rintro ⟨_, none⟩ last ends suits
      exact absurd suits (none.mp miss last (List.mem_of_getLast? ends))
    · intro answered
      have nobody : ∀ e ∈ entries, ¬ e.Suits unset starting_time station_to_go := by
        intro e member suits
        rcases mem_of_dropLast_or_last member with inside | last
        · exact nobody e inside suits
        · obtain ⟨e', inside, suits'⟩ := answered e last suits
          exact nobody e' inside suits'
      refine ⟨fun j => ⟨fun same => ?_, fun first => ?_⟩, ⟨fun _ => nobody, fun _ => miss⟩⟩
      · rw [miss] at same
        omega
      · obtain ⟨⟨e, there, suits⟩, _⟩ := first
        exact absurd suits (nobody e (List.mem_of_getElem? there))
  · constructor
    · intro _ _ _ _
      obtain ⟨⟨e, there, suits⟩, _⟩ := first
      refine ⟨e, List.mem_of_getElem? (i := i) ?_, suits⟩
      rw [List.getElem?_dropLast, if_pos bound, there]
    · intro _
      refine ⟨fun j => ⟨fun same => ?_, fun other => ?_⟩, ⟨fun none => ?_, fun none => ?_⟩⟩
      · rw [hit] at same
        rwa [← show i = j by omega]
      · rw [hit, first.unique other]
      · rw [hit] at none
        omega
      · obtain ⟨⟨e, there, suits⟩, _⟩ := first
        exact absurd suits (none e (List.mem_of_getElem? there))

end Search

/-- The last bus of the day leaves without the travellers who could take no other. -/
theorem last_bus_is_not_found : ¬ SearchIsExact (fun _ => 0)
    [bus "09:00" "bus9" "09:20" "StationB", bus "23:00" "bus9" "23:20" "StationB"] []
    "10:00".toList "StationB".toList := by
  intro exact
  have missed := exact.2.mp (by decide)
  exact missed (bus "23:00" "bus9" "23:20" "StationB") (by decide) ⟨by decide, by decide⟩

end TransitNet
