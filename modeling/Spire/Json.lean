/-!
# JSON values

The values of the JSON data format. A number is kept as it is written, since nothing
here computes with it, and the members of an object keep their order and their repeated
names.

## Main definitions

* `Json` — the six kinds of value
* `Json.member?` — the value that an object gives to a name
* `Json.decEq` — a comparison of values
-/

namespace Spire

/-- A JSON value. -/
inductive Json where
  | null
  | bool (value : Bool)
  | number (literal : String)
  | string (text : String)
  | array (items : List Json)
  | object (members : List (String × Json))
deriving Repr, Inhabited

namespace Json

/-- The value of a name among the members of an object. Of repeated names the last one
counts. -/
def member? (members : List (String × Json)) (name : String) : Option Json :=
  members.reverse.lookup name

mutual

/-- A comparison of values as they are written: the order of members counts. -/
def decEq : (a b : Json) → Decidable (a = b)
  | null, null => isTrue rfl
  | bool a, bool b => decidable_of_iff (a = b) (by simp)
  | number a, number b => decidable_of_iff (a = b) (by simp)
  | string a, string b => decidable_of_iff (a = b) (by simp)
  | array as, array bs =>
    match decEqAll as bs with
    | isTrue same => isTrue (by rw [same])
    | isFalse differ => isFalse fun same => differ (array.inj same)
  | object as, object bs =>
    match decEqMembers as bs with
    | isTrue same => isTrue (by rw [same])
    | isFalse differ => isFalse fun same => differ (object.inj same)
  | null, bool _ | null, number _ | null, string _ | null, array _ | null, object _ => isFalse nofun
  | bool _, null | bool _, number _ | bool _, string _ | bool _, array _ | bool _, object _ =>
    isFalse nofun
  | number _, null | number _, bool _ | number _, string _ | number _, array _
  | number _, object _ => isFalse nofun
  | string _, null | string _, bool _ | string _, number _ | string _, array _
  | string _, object _ => isFalse nofun
  | array _, null | array _, bool _ | array _, number _ | array _, string _ | array _, object _ =>
    isFalse nofun
  | object _, null | object _, bool _ | object _, number _ | object _, string _
  | object _, array _ => isFalse nofun

/-- A comparison of lists of values. -/
def decEqAll : (as bs : List Json) → Decidable (as = bs)
  | [], [] => isTrue rfl
  | [], _ :: _ => isFalse nofun
  | _ :: _, [] => isFalse nofun
  | a :: as, b :: bs =>
    match decEq a b, decEqAll as bs with
    | isTrue first, isTrue others => isTrue (by rw [first, others])
    | isFalse differ, _ => isFalse fun same => differ (List.cons.inj same).1
    | _, isFalse differ => isFalse fun same => differ (List.cons.inj same).2

/-- A comparison of lists of members. -/
def decEqMembers : (as bs : List (String × Json)) → Decidable (as = bs)
  | [], [] => isTrue rfl
  | [], _ :: _ => isFalse nofun
  | _ :: _, [] => isFalse nofun
  | (j, a) :: as, (k, b) :: bs =>
    match instDecidableEqString j k, decEq a b, decEqMembers as bs with
    | isTrue names, isTrue values, isTrue others => isTrue (by rw [names, values, others])
    | isFalse differ, _, _ => isFalse fun same => differ (by simp_all)
    | _, isFalse differ, _ => isFalse fun same => differ (by simp_all)
    | _, _, isFalse differ => isFalse fun same => differ (List.cons.inj same).2

end

instance : DecidableEq Json := decEq

end Json

end Spire
