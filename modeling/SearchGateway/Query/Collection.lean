/-
  SearchGateway.Query.Collection

  The collections that may be searched: their identifiers, their categories and the
  properties that are asked for when a caller names none.
-/

namespace SearchGateway.Query

/-- A group of collections, as documentation shows them. -/
inductive Category where
  | standard
  | ecommerce
  | engagement
  | other
  deriving DecidableEq, Repr

namespace Category

/-- The name of a category. -/
def name : Category → String
  | standard => "standard"
  | ecommerce => "ecommerce"
  | engagement => "engagement"
  | other => "other"

end Category

/-- A collection that may be searched. -/
inductive Collection where
  | contacts
  | companies
  | deals
  | tickets
  | products
  | lineItems
  | quotes
  | invoices
  | orders
  | carts
  | calls
  | emails
  | meetings
  | notes
  | tasks
  | communications
  | postalMail
  | feedbackSubmissions
  | goalTargets
  | leads
  deriving DecidableEq, Repr

namespace Collection

/-- Every collection, in the order in which they are listed to callers. -/
def all : List Collection := [
  contacts, companies, deals, tickets, products, lineItems, quotes, invoices, orders, carts, calls,
  emails, meetings, notes, tasks, communications, postalMail, feedbackSubmissions, goalTargets,
  leads]

/-- The identifier of a collection in paths and query text. -/
def id : Collection → String
  | contacts => "contacts"
  | companies => "companies"
  | deals => "deals"
  | tickets => "tickets"
  | products => "products"
  | lineItems => "line_items"
  | quotes => "quotes"
  | invoices => "invoices"
  | orders => "orders"
  | carts => "carts"
  | calls => "calls"
  | emails => "emails"
  | meetings => "meetings"
  | notes => "notes"
  | tasks => "tasks"
  | communications => "communications"
  | postalMail => "postal_mail"
  | feedbackSubmissions => "feedback_submissions"
  | goalTargets => "goal_targets"
  | leads => "leads"

/-- The category of a collection. -/
def category : Collection → Category
  | contacts | companies | deals | tickets => .standard
  | products | lineItems | quotes | invoices | orders | carts => .ecommerce
  | calls | emails | meetings | notes | tasks | communications | postalMail => .engagement
  | feedbackSubmissions | goalTargets | leads => .other

/-- The properties asked for per item when the caller names none. -/
def defaultProperties : Collection → List String
  | contacts => ["email", "firstname", "lastname", "phone", "company"]
  | companies => ["name", "domain", "industry", "city", "phone"]
  | deals => ["dealname", "amount", "dealstage", "closedate", "pipeline"]
  | tickets => ["subject", "content", "hs_pipeline_stage", "hs_ticket_priority"]
  | products => ["name", "price", "description", "hs_sku"]
  | lineItems => ["name", "quantity", "price", "amount"]
  | calls => ["hs_call_title", "hs_call_duration", "hs_timestamp"]
  | emails => ["hs_email_subject", "hs_email_status", "hs_timestamp"]
  | meetings => ["hs_meeting_title", "hs_meeting_start_time", "hs_meeting_end_time"]
  | notes => ["hs_note_body", "hs_timestamp"]
  | tasks => ["hs_task_subject", "hs_task_status", "hs_timestamp"]
  | _ => ["hs_object_id", "hs_createdate", "hs_lastmodifieddate"]

/-- The identifiers of all collections. -/
def identifiers : List String :=
  all.map id

/-- The collection with an identifier. -/
def ofId? (identifier : String) : Option Collection :=
  all.find? fun collection => collection.id == identifier

/-! ## Identifiers -/

theorem mem_all (collection : Collection) : collection ∈ all := by
  cases collection <;> decide

/-- Every collection is found under its identifier. -/
theorem ofId?_id (collection : Collection) : ofId? collection.id = some collection := by
  cases collection <;> decide

/-- A collection that is found has the identifier that was looked for. -/
theorem id_of_ofId? {identifier : String} {collection : Collection}
    (h : ofId? identifier = some collection) : collection.id = identifier := by
  simpa using List.find?_some h

end Collection

end SearchGateway.Query
