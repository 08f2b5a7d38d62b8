import MailTemplate.Starter.Draft

/-!
# Starter templates

Three documents to start from: a welcome mail, a newsletter and a promotion.
-/

namespace MailTemplate.Starter

/-- A JSON array of texts. -/
def texts (items : List String) : Json := .array (items.map Json.text)

/-- The row at the top of every starter. -/
def header : RowDraft where
  role := some .header
  columns :=
    [{ units := some 6, blocks := [.image "logo" "Logo"] },
     { units := some 6,
       blocks := [.link "View in browser" "\x7b\x7bview_url\x7d\x7d"] }]

/-- A link to a platform. -/
def platform (name url : String) : Json := .ofFields [("platform", .text name), ("url", .text url)]

/-- The row at the bottom of every starter. -/
def footer : RowDraft where
  role := some .footer
  columns :=
    [{ blocks :=
        [.socials (.array
          [platform "x" "https://x.com", platform "instagram" "https://instagram.com"]),
         .text "<p>You are receiving this email because you signed up.</p>",
         .link "Unsubscribe" "\x7b\x7bunsubscribe_url\x7d\x7d"] }]

/-- A mail that greets a new member. -/
def welcome : Draft where
  frame := { id := "welcome", name := "Welcome", previewText := "Thanks for joining us" }
  rows :=
    [header,
     { role := some .hero
       columns :=
        [{ blocks :=
            [.heading "h1" "Welcome aboard",
             .text "<p>We are glad to have you. Here is how to get started.</p>",
             .button "Get started" "https://example.com/start"] }] },
     { columns :=
        [{ blocks :=
            [.list (texts ["Complete your profile", "Invite your team",
               "Send your first campaign"]) true,
             .divider] }] },
     footer]

/-- A column of the newsletter. -/
def article (title : String) : ColumnDraft where
  blocks :=
    [.image "https://placehold.co/280x160" title, .heading "h3" title,
     .text "<p>A short summary of the story.</p>", .link "Read more" "https://example.com/blog"]

/-- A digest of articles in two columns. -/
def newsletter : Draft where
  frame :=
    { id := "newsletter", name := "Monthly newsletter", previewText := "What happened this month"
      variant := some .outline }
  rows :=
    [header,
     { columns :=
        [{ blocks :=
            [.heading "h1" "This month",
             .text "<p>Our favourite stories, all in one place.</p>"] }] },
     { role := some .gallery, columns := [article "Product update", article "Customer story"] },
     footer]

/-- The announcement of a sale. -/
def promotion : Draft where
  frame :=
    { id := "promotion", name := "Spring sale", previewText := "20% off everything this week"
      theme := some "#F97316" }
  rows :=
    [header,
     { role := some .hero
       columns :=
        [{ blocks :=
            [.image "https://placehold.co/600x240" "Spring sale",
             .heading "h1" "Spring sale"] }] },
     { role := some .discount
       columns :=
        [{ blocks :=
            [.heading "h2" "SPRING20", .text "<p>Use this code at checkout.</p>"] }] },
     { role := some .cart
       columns :=
        [{ units := some 4, blocks := [.image "https://placehold.co/80" "Jacket"] },
         { units := some 8,
           blocks := [.table (.array [texts ["Item", "Price"], texts ["Rain jacket", "$96"]])] }] },
     { role := some .cta
       columns := [{ blocks := [.button "Shop the sale" "https://example.com/sale"] }] },
     footer]

/-- The starters by name. -/
def all : List (String × Draft) :=
  [("welcome", welcome), ("newsletter", newsletter), ("promotion", promotion)]

end MailTemplate.Starter
