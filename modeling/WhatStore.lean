import WhatStore.Safety.Mail
import WhatStore.Safety.Terminal
import WhatStore.Safety.Cancellation
import WhatStore.Safety.Reversal
import WhatStore.Safety.GatewayTruth
import WhatStore.Safety.Shelf
import WhatStore.Safety.Coupons
import WhatStore.Checkout.Methods
import WhatStore.Checkout.Totals
import WhatStore.Auth.Guards
import WhatStore.Safety.Placement
import WhatStore.Billing.Subscriptions
import WhatStore.Accounts.Sessions
import WhatStore.Accounts.Budget
import WhatStore.Accounts.Links
import WhatStore.Platform.Lifecycle
import WhatStore.Billing.StoreLimit
import WhatStore.Safety.PayPal
import WhatStore.Billing.Purchases
import WhatStore.Billing.Replaced
import WhatStore.Billing.ProductLimit
import WhatStore.Text.Csv
import WhatStore.Text.Templates
import WhatStore.Checkout.Currency
import WhatStore.Checkout.SessionAmount
import WhatStore.Catalog.Templates
import WhatStore.Catalog.Images
import WhatStore.Catalog.Prices
import WhatStore.Checkout.CouponCodes
import WhatStore.Safety.Hidden
import WhatStore.Safety.Evidence
import WhatStore.Audit.Redaction
import WhatStore.Catalog.Reorder
import WhatStore.Reports.Segments
import WhatStore.Backups.Retention
import WhatStore.Text.Dates
import WhatStore.Reports.Revenue
import WhatStore.Privacy.AnonymizeIp
import WhatStore.Preview.Template
import WhatStore.Checkout.Decimals
import WhatStore.Catalog.Slugs
import WhatStore.Files.Uploads
import WhatStore.Billing.Expiry
import WhatStore.Prisma.Settling
import WhatStore.Prisma.Isolation
import WhatStore.Checkout.Conservation
import WhatStore.Accounts.Revocations
import WhatStore.Billing.Due
