import DomainLens.DomainPortfolio.Edits

/-!
# Contacts

A contact is a record of its own, made by hand or for an account; one that is an account is shown
with what the account says.
-/

namespace DomainLens
namespace DomainPortfolio

open Python

abbrev ContactId := Nat

/-- A row of `users`, as far as a contact shows it. -/
structure Account where
  id : Nat
  name : Option Text
  email : Text
  phone : Option Text

/-- A row of `contacts`. -/
structure Contact where
  id : ContactId
  name : Option Text
  email : Option Text
  phone : Option Text
  userId : Option Nat
deriving DecidableEq

structure Person where
  id : ContactId
  name : Text
  email : Option Text
  phone : Option Text
deriving DecidableEq

/-- The contacts, with the last id that was given out. -/
structure AddressBook where
  contacts : Table Contact.id
  lastContact : ContactId
  issued : ∀ contact ∈ contacts.rows, contact.id ≤ lastContact

/-- `MAX_CONTACTS`. -/
def maxContacts : Nat := 1000

/-- The account of a contact, where there still is one. -/
def Contact.account (contact : Contact) (accounts : List Account) : Option Account :=
  contact.userId.bind fun id => accounts.find? fun account => account.id = id

/-- `_shape`. -/
def shape (accounts : List Account) (contact : Contact) : Person :=
  let account := contact.account accounts
  let name := match account with
    | some account =>
        ((truthyText account.name).or (truthyText (some account.email))).or (truthyText contact.name)
    | none => truthyText contact.name
  let email := match account with
    | some account => some account.email
    | none => contact.email
  let phone := match account with
    | some account => (truthyText account.phone).or contact.phone
    | none => contact.phone
  { id := contact.id
    name := (name.or (truthyText email)).getD ("Contact ".toList ++ strOf contact.id)
    email
    phone }

/-- What the list of contacts is ordered by. -/
def orderKey (accounts : List Account) (contact : Contact) : Option Text :=
  let account := contact.account accounts
  (((account.bind Account.name).or contact.name).or (account.map Account.email)).or contact.email

/-- The order of the list, without regard to case and the contacts without any key first. -/
def keyLe : Option Text → Option Text → Bool
  | none, _ => true
  | some _, none => false
  | some left, some right => noCase left ≤ noCase right

/-- `_clean`. -/
def cleanContact (name email phone : Option Text) :
    Except Text (Option Text × Option Text × Option Text) :=
  let words (value : Option Text) (size : Nat) :=
    orNone ((joinWords (split (value.getD []))).take size)
  let email := orNone ((strip (email.getD [])).take 254)
  match email with
  | none => .ok (words name 200, none, words phone 50)
  | some email =>
      if dollar isEmail email then .ok (words name 200, some email, words phone 50)
      else .error ("Not an e-mail address: ".toList ++ email)

namespace AddressBook

def empty : AddressBook where
  contacts := Table.empty
  lastContact := 0
  issued := by simp [Table.empty]

/-- `INSERT INTO contacts`. -/
def insert (book : AddressBook) (name email phone : Option Text) (userId : Option Nat) :
    AddressBook where
  contacts := book.contacts.insert { id := book.lastContact + 1, name, email, phone, userId }
    (by
      rw [Table.find_eq_none]
      intro contact member same
      have known := book.issued contact member
      rw [same] at known
      exact absurd known (Nat.not_succ_le_self _))
  lastContact := book.lastContact + 1
  issued contact member := by
    rcases List.mem_append.mp member with old | new
    · exact Nat.le_succ_of_le (book.issued contact old)
    · rw [List.mem_singleton.mp new]

/-- `list_contacts`, the counts left out. -/
def listContacts (accounts : List Account) (book : AddressBook) : List Person :=
  (book.contacts.rows.insertionSort fun left right =>
    keyLe (orderKey accounts left) (orderKey accounts right)).map (shape accounts)

/-- `get`. -/
def get (accounts : List Account) (book : AddressBook) (id : ContactId) : Option Person :=
  (book.contacts.find id).map (shape accounts)

/-- `create`, by hand. -/
def create (accounts : List Account) (book : AddressBook) (name email phone : Option Text) :
    Except Text (AddressBook × Person) :=
  if maxContacts ≤ book.contacts.rows.length then .error "At most 1000 contacts".toList
  else do
    let (name, email, phone) ← cleanContact name email phone
    if name = none ∧ email = none then
      .error "Give the contact a name or an e-mail address".toList
    else
      let id := book.lastContact + 1
      .ok (book.insert name email phone none,
        shape accounts { id, name, email, phone, userId := none })

/-- `create` for an account: one account, one contact. -/
def createFor (accounts : List Account) (book : AddressBook) (user : Nat) :
    Except Text (AddressBook × Person) :=
  if maxContacts ≤ book.contacts.rows.length then .error "At most 1000 contacts".toList
  else
    match accounts.find? fun account => account.id = user with
    | none => .error "Unknown account".toList
    | some account =>
        match book.contacts.rows.find? fun contact => contact.userId = some account.id with
        | some existing => .ok (book, shape accounts existing)
        | none =>
            let id := book.lastContact + 1
            .ok (book.insert account.name (some account.email) account.phone (some account.id),
              shape accounts { id, name := account.name, email := some account.email,
                               phone := account.phone, userId := some account.id })

def ids (book : AddressBook) : List ContactId := book.contacts.rows.map Contact.id

end AddressBook

/-- `get_user_by_email`. -/
def getUserByEmail (accounts : List Account) (email : Text) : Option Account :=
  accounts.find? fun account => account.email = lower (strip email)

end DomainPortfolio
end DomainLens
